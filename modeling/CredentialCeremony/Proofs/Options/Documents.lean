import CredentialCeremony.Options.Caller
import CredentialCeremony.Options.Server
import CredentialCeremony.Proofs.Schema.Obtained

set_option autoImplicit false

/-!
# Documents that are read and written again

The documents of a ceremony are the options of either side, the options handed to the platform and
the credentials that it answers. Their schemas are faithful and lawful, and what they keep beside the
fields they know are the further members of the extensions.

Main statement: whatever is read as one of these documents, in either way, is written as a text that
is read back as the same value, unless the extensions hold a double (`documents_reread`).
-/

namespace CredentialCeremony

/-! ## Further members of the documents -/

theorem extensionInputs_integral {e : ExtensionInputs} (h : e.Integral) :
    extensionInputsSchema.Integral e :=
  ⟨fun a _ => Schema.flag.allFurther_of_closed rfl _ a, h⟩

theorem extensionOutputs_integral {e : ExtensionOutputs} (h : e.Integral) :
    extensionOutputsSchema.Integral e :=
  ⟨fun a _ => CredentialProperties.schema.allFurther_of_closed rfl _ a, h⟩

theorem CallerCreation.integral {c : CallerCreation} (h : ∀ e ∈ c.extensions, e.Integral) :
    CallerCreation.schema.Integral c := by
  -- the extensions are the last of nine fields
  iterate 8 apply Fields.AllFurther.closed rfl
  exact ⟨fun e he => extensionInputs_integral (h e he), trivial⟩

theorem CallerRequest.integral {c : CallerRequest} (h : ∀ e ∈ c.extensions, e.Integral) :
    CallerRequest.schema.Integral c := by
  iterate 5 apply Fields.AllFurther.closed rfl
  exact ⟨fun e he => extensionInputs_integral (h e he), trivial⟩

theorem CreationOptions.integral {o : CreationOptions} (h : ∀ e ∈ o.extensions, e.Integral) :
    CreationOptions.schema.Integral o := by
  iterate 8 apply Fields.AllFurther.closed rfl
  exact ⟨fun e he => extensionInputs_integral (h e he), trivial⟩

theorem RequestOptions.integral {o : RequestOptions} (h : ∀ e ∈ o.extensions, e.Integral) :
    RequestOptions.schema.Integral o := by
  iterate 5 apply Fields.AllFurther.closed rfl
  exact ⟨fun e he => extensionInputs_integral (h e he), trivial⟩

theorem Credential.integral {ρ : Type} {response : Schema ρ} (hresponse : response.closed = true)
    {c : Credential ρ} (h : c.extensionOutputs.Integral) :
    (Credential.schema response).Integral c := by
  iterate 3 apply Fields.AllFurther.closed rfl
  apply Fields.AllFurther.closed hresponse
  apply Fields.AllFurther.closed rfl
  exact ⟨extensionOutputs_integral h, trivial⟩

/-! ## Lawful documents -/

theorem extensionInputs_lawful : extensionInputsSchema.Lawful := Schema.flag.lawful_of_closed rfl

theorem extensionOutputs_lawful : extensionOutputsSchema.Lawful :=
  CredentialProperties.schema.lawful_of_closed rfl

theorem CallerCreation.lawful : CallerCreation.schema.Lawful := by
  iterate 8 apply Fields.Lawful.closed rfl
  exact Fields.Lawful.optional trivial trivial

theorem CallerRequest.lawful : CallerRequest.schema.Lawful := by
  iterate 5 apply Fields.Lawful.closed rfl
  exact Fields.Lawful.optional trivial trivial

theorem CreationOptions.lawful : CreationOptions.schema.Lawful := by
  iterate 8 apply Fields.Lawful.closed rfl
  exact Fields.Lawful.optional trivial trivial

theorem RequestOptions.lawful : RequestOptions.schema.Lawful := by
  iterate 5 apply Fields.Lawful.closed rfl
  exact Fields.Lawful.optional trivial trivial

theorem Credential.lawful {ρ : Type} {response : Schema ρ} (h : response.closed = true) :
    (Credential.schema response).Lawful := by
  iterate 3 apply Fields.Lawful.closed rfl
  apply Fields.Lawful.closed h
  apply Fields.Lawful.closed rfl
  exact Fields.Lawful.defaulted extensionOutputs_lawful trivial

/-! ## Reading back -/

/-- Every document of a ceremony is read back from what is written for it, in both ways and without
a warning, if it was read off some text and its extensions hold no double; what is read back is
written as the same text. -/
theorem documents_reread :
    (∀ o, WireOptions.schema.Obtained o → WireOptions.schema.Rereads o) ∧
    (∀ o, ServerOptions.schema.Obtained o → ServerOptions.schema.Rereads o) ∧
    (∀ c, CallerCreation.schema.Obtained c → (∀ e ∈ c.extensions, e.Integral) →
      CallerCreation.schema.Rereads c) ∧
    (∀ c, CallerRequest.schema.Obtained c → (∀ e ∈ c.extensions, e.Integral) →
      CallerRequest.schema.Rereads c) ∧
    (∀ c, CreationCall.schema.Obtained c → (∀ e ∈ c.publicKey.extensions, e.Integral) →
      CreationCall.schema.Rereads c) ∧
    (∀ c, RequestCall.schema.Obtained c → (∀ e ∈ c.publicKey.extensions, e.Integral) →
      RequestCall.schema.Rereads c) ∧
    (∀ c, createdCredentialSchema.Obtained c → c.extensionOutputs.Integral →
      createdCredentialSchema.Rereads c) ∧
    (∀ c, assertedCredentialSchema.Obtained c → c.extensionOutputs.Integral →
      assertedCredentialSchema.Rereads c) := by
  refine ⟨?_, ?_, ?_, ?_, ?_, ?_, ?_, ?_⟩
  -- the options of the server keep no further members
  · intro o h
    exact h.rereads_of_closed rfl rfl (by decide)
  · intro o h
    exact h.rereads_of_closed rfl rfl (by decide)
  · intro c h hintegral
    exact h.rereads rfl CallerCreation.lawful (by decide) (CallerCreation.integral hintegral)
  · intro c h hintegral
    exact h.rereads rfl CallerRequest.lawful (by decide) (CallerRequest.integral hintegral)
  · intro c h hintegral
    exact h.rereads rfl (Fields.Lawful.required CreationOptions.lawful trivial) (by decide)
      ⟨CreationOptions.integral hintegral, trivial⟩
  · intro c h hintegral
    exact h.rereads rfl (Fields.Lawful.required RequestOptions.lawful trivial) (by decide)
      ⟨RequestOptions.integral hintegral, trivial⟩
  · intro c h hintegral
    exact h.rereads rfl (Credential.lawful rfl) (by decide) (Credential.integral rfl hintegral)
  · intro c h hintegral
    exact h.rereads rfl (Credential.lawful rfl) (by decide) (Credential.integral rfl hintegral)

/-- Extensions that nobody knows are kept in their order, with all that is in them. -/
theorem documents_reread_of_further_members :
    assertedCredentialSchema.Rereads
      ⟨"AQ", [1], .publicKey, ⟨[2], [3], [4], none⟩, none,
        ⟨some ⟨some true⟩,
          ⟨[("uvm", .array [.number (.integer 2)]), ("appid", .object [])], by decide⟩⟩⟩ := by
  refine documents_reread.2.2.2.2.2.2.2 _ ⟨utf8 ("\x7b\"id\":\"AQ\",\"rawId\":\"AQ\"," ++
    "\"type\":\"public-key\",\"response\":[\"Ag\",\"Aw==\",\"BA\"]," ++
    "\"clientExtensionResults\":\x7b\"uvm\":[2],\"credProps\":\x7b\"rk\":true\x7d," ++
    "\"appid\":\x7b\x7d\x7d\x7d"), .inl ?_⟩ ?_
  · decide +kernel
  · intro member hmember
    simp only [List.mem_cons, List.not_mem_nil, or_false] at hmember
    rcases hmember with rfl | rfl
    · exact ⟨trivial, trivial⟩
    · trivial

end CredentialCeremony
