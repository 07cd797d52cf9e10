import CredentialCeremony.Proofs.Form
import CredentialCeremony.Proofs.Options.Documents
import CredentialCeremony.Submission

set_option autoImplicit false

/-!
# Submissions read back

Nothing of an assertion is lost on its way to the relying party: the form body is read back as the
fields, the binary values in the fields are read back as those of the credential, and the outputs of
the extensions are read back from their JSON text.

Main statement: `Submission.formBody_decodes`.
-/

namespace CredentialCeremony

/-- The outputs of the extensions stand one level below the credential. -/
theorem Credential.drawn_extensionOutputs {ρ : Type} {response : Schema ρ} {depth : Nat}
    {c : Credential ρ} (h : (Credential.schema response).Drawn depth c) :
    extensionOutputsSchema.Drawn (depth - 1) c.extensionOutputs := by
  obtain ⟨-, -, -, -, -, houtputs, -⟩ := h
  exact houtputs

/-- The outputs of the extensions of a credential that was read are read back on their own. -/
theorem AssertedCredential.extensionOutputs_reread {c : AssertedCredential}
    (h : assertedCredentialSchema.Obtained c) (hintegral : c.extensionOutputs.Integral) :
    extensionOutputsSchema.Rereads c.extensionOutputs := by
  have hdrawn : assertedCredentialSchema.Drawn Reader.maxDepth c := h.drawn (Credential.lawful rfl)
  exact Schema.rereads_of_drawn rfl extensionOutputs_lawful (by decide) (Nat.sub_le _ _)
    (Credential.drawn_extensionOutputs hdrawn) (extensionOutputs_integral hintegral)

/-- The form body of a submission is read back as its fields in order, and these hold the username
and, as texts, the binary values of the credential and the outputs of its extensions. -/
theorem Submission.formBody_decodes (parameters : Parameters) (credential : AssertedCredential)
    (username : Option String) (hread : assertedCredentialSchema.Obtained credential)
    (hintegral : credential.extensionOutputs.Integral) :
    let submission := Submission.encode parameters credential username
    (Text.cut (· == '&') submission.formBody.toList).mapM Form.decodePair =
        some submission.fields ∧
      Form.decode submission.formBody = some submission.fields ∧
      ∃ id clientData authenticatorData signature extensions,
        submission.fields =
          (username.map fun name => (fieldName parameters "username", name)).toList ++
            [(fieldName parameters "credentialId", id),
              (fieldName parameters "clientDataJSON", clientData),
              (fieldName parameters "authenticatorData", authenticatorData),
              (fieldName parameters "signature", signature),
              (fieldName parameters "clientExtensionsJSON", extensions)] ∧
        Base64.decodeUrl? id = some credential.rawId ∧
        Base64.decodeUrl? clientData = some credential.response.clientData ∧
        Base64.decodeUrl? authenticatorData = some credential.response.authenticatorData ∧
        Base64.decodeUrl? signature = some credential.response.signature ∧
        extensionOutputsSchema.readText (utf8 extensions) = ⟨.ok credential.extensionOutputs, []⟩ ∧
        extensionOutputsSchema.readValue (utf8 extensions) =
          ⟨.ok credential.extensionOutputs, []⟩ := by
  intro submission
  have hne : submission.fields ≠ [] := List.append_ne_nil_of_right_ne_nil _ (List.cons_ne_nil _ _)
  have houtputs := AssertedCredential.extensionOutputs_reread hread hintegral
  refine ⟨Form.mapM_decodePair_cut_encode hne, Form.decode_encode submission.fields, ?_⟩
  refine ⟨_, _, _, _, _, rfl, ?_, ?_, ?_, ?_, houtputs.direct, houtputs.through⟩
  · exact Base64.decodeUrl?_encode credential.rawId
  · exact Base64.decodeUrl?_encode credential.response.clientData
  · exact Base64.decodeUrl?_encode credential.response.authenticatorData
  · exact Base64.decodeUrl?_encode credential.response.signature

/-- Separators in the names that the server chose, in the username and in the outputs of the
extensions do not cut the body in a wrong place. -/
theorem Submission.formBody_decodes_of_separators :
    Form.decode (Submission.encode ⟨[("credentialId", "a&b=")], by decide⟩
      ⟨"AQ", [1], .publicKey, ⟨[2], [3], [4], none⟩, none,
        ⟨none, ⟨[("c=d", .number (.integer 5))], by decide⟩⟩⟩ (some "+ %&")).formBody =
      some [("username", "+ %&"), ("a&b=", "AQ"), ("clientDataJSON", "Ag"),
        ("authenticatorData", "Aw"), ("signature", "BA"),
        ("clientExtensionsJSON", "\x7b\"c=d\":5\x7d")] := by
  refine (Submission.formBody_decodes _ _ _ ⟨utf8 ("\x7b\"id\":\"AQ\",\"rawId\":\"AQ==\"," ++
    "\"type\":\"public-key\",\"response\":[\"Ag\",\"Aw==\",\"BA\"]," ++
    "\"clientExtensionResults\":\x7b\"c=d\":5\x7d\x7d"), .inr ?_⟩ ?_).2.1.trans ?_
  · decide +kernel
  · intro member hmember
    rw [List.mem_singleton] at hmember
    subst hmember
    trivial
  · decide +kernel

end CredentialCeremony
