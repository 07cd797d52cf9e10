import CredentialCeremony.Availability.Policy
import CredentialCeremony.Options.Caller
import CredentialCeremony.Proofs.Options.TolerantLists
import CredentialCeremony.Proofs.Schema.Variation
import CredentialCeremony.Service.Error

set_option autoImplicit false

/-!
# The records of a ceremony

The record types whose fields are all known, and what they declare: the names of their fields in
order, which of them have to be there, and the older names that are read for a user
(`StructType`). Only the two records of extensions, which keep any further member, are not among
them.

Main statement: their values do not depend on the order of members, on members of unknown names, on
which name of a field is used, and on whether the values of all fields stand in an object or in an
array, at any depth of a document (`variations_read_alike`).
-/

namespace CredentialCeremony

open FieldInfo

/-- The fields of a user as served, with the names of older servers. -/
def WireUser.declared : List FieldInfo :=
  [⟨"id", ["userHandle"], true⟩, ⟨"name", ["username"], true⟩, possible "displayName"]

/-- The record types of a ceremony, and their fields. -/
inductive StructType : {α : Type} → Schema α → (declared : List FieldInfo) → Prop where
  | relyingParty : StructType RelyingParty.schema [possible "id", needed "name", possible "icon"]
  | userAccount : StructType UserAccount.schema [needed "id", needed "displayName", needed "name"]
  | keyParameters : StructType KeyParameters.schema [needed "type", needed "alg"]
  | descriptor : StructType CredentialDescriptor.schema
      [needed "type", needed "id", possible "transports"]
  | selection : StructType AuthenticatorSelection.schema
      [possible "authenticatorAttachment", possible "residentKey", possible "requireResidentKey",
        possible "userVerification"]
  | wireUser : StructType WireUser.schema WireUser.declared
  | wireDescriptor : StructType WireDescriptor.schema
      [possible "type", needed "id", possible "transports"]
  | wireOptions : StructType WireOptions.schema
      [needed "relyingParty", possible "user", needed "challenge", possible "pubKeyCredParams",
        possible "registrationTimeout", possible "authenticationTimeout", possible "credentials",
        possible "parameters"]
  | serverOptions : StructType ServerOptions.schema
      [needed "relyingParty", possible "user", needed "challenge", needed "pubKeyCredParams",
        possible "registrationTimeout", possible "authenticationTimeout", possible "credentials",
        possible "parameters"]
  | callerCreation : StructType CallerCreation.schema
      [possible "rp", possible "user", possible "challenge", possible "pubKeyCredParams",
        possible "timeout", possible "excludeCredentials", possible "authenticatorSelection",
        possible "attestation", possible "extensions"]
  | callerRequest : StructType CallerRequest.schema
      [possible "challenge", possible "timeout", possible "rpId", possible "allowCredentials",
        possible "userVerification", possible "extensions"]
  | creationOptions : StructType CreationOptions.schema
      [needed "rp", needed "user", needed "challenge", needed "pubKeyCredParams",
        possible "timeout", possible "excludeCredentials", possible "authenticatorSelection",
        possible "attestation", possible "extensions"]
  | requestOptions : StructType RequestOptions.schema
      [needed "challenge", possible "timeout", possible "rpId", possible "allowCredentials",
        possible "userVerification", possible "extensions"]
  | creationCall : StructType CreationCall.schema [needed "publicKey"]
  | requestCall : StructType RequestCall.schema [needed "publicKey"]
  | credentialProperties : StructType CredentialProperties.schema [possible "rk"]
  | assertionResponse : StructType AssertionResponse.schema
      [needed "clientDataJSON", needed "authenticatorData", needed "signature",
        possible "userHandle"]
  | attestationResponse : StructType AttestationResponse.schema
      [needed "clientDataJSON", needed "attestationObject", possible "transports"]
  | credential {ρ : Type} (response : Schema ρ) : StructType (Credential.schema response)
      [needed "id", needed "rawId", needed "type", needed "response",
        possible "authenticatorAttachment", possible "clientExtensionResults"]
  | rule : StructType CompatibilityRule.schema
      [needed "platform", needed "browser", needed "requirement"]
  | policy : StructType Policy.schema [needed "rules"]
  | platformError : StructType PlatformError.schema [needed "name", needed "message"]

namespace StructType

variable {α : Type} {s : Schema α} {declared : List FieldInfo}

theorem declares (h : StructType s declared) : s.Declares declared := by
  cases h <;> exact ⟨_, _, _, _, rfl, rfl⟩

theorem apart (h : StructType s declared) : Apart declared := by
  cases h <;> decide

end StructType

open Schema

/-- Whatever a document describes, it is read as the same, or refused as well, if in any records of it
the members are put in another order, members of unknown names are added or left out, fields go by
another of their names, or the values of all fields stand in an array. This is so for trees and for
texts that are read through a tree, whatever the records are nested in. Each record type of a
ceremony is such a record, with the fields it declares, and takes a full array just as the object of
the same values, up to warnings and errors. A user as served has two names for its id and for its
name. -/
theorem variations_read_alike :
    (∀ (α : Type) (s : Schema α) (x y : Json), Relation.EqvGen s.Variation x y →
      (s.extract x).answer? = (s.extract y).answer?) ∧
    (∀ (α : Type) (s : Schema α) (text text' : Bytes) (x y : Json), x.IsTreeOf text →
      y.IsTreeOf text' → Relation.EqvGen s.Variation x.resolve y.resolve →
        (s.readValue text).value? = (s.readValue text').value?) ∧
    (∀ (α : Type) (s : Schema α) (declared : List FieldInfo), StructType s declared →
      s.Declares declared ∧ Apart declared ∧
        ∀ items : List Json, items.length = declared.length →
          s.extract (.array items) =
            s.extract (.object ((declared.map FieldInfo.name).zip items))) ∧
    standsFor? WireUser.declared "userHandle" = standsFor? WireUser.declared "id" ∧
    standsFor? WireUser.declared "username" = standsFor? WireUser.declared "name" := by
  refine ⟨fun α s x y h => answer?_eq_of_eqvGen h, ?_, ?_, rfl, rfl⟩
  · intro α s text text' x y hx hy h
    rw [readValue_value?_of_tree hx, readValue_value?_of_tree hy, answer?_eq_of_eqvGen h]
  · intro α s declared h
    exact ⟨h.declares, h.apart, fun items => extract_array_eq_object h.declares h.apart⟩

/-- A user under the older names, in options that have a member more and stand in another order. -/
theorem variations_read_alike_of_user : WireOptions.schema.Answers
    (.object [("version", .number (.integer 2)), ("challenge", .string "AAEC"),
      ("user", .object [("userHandle", .string "AQ"), ("username", .string "n")]),
      ("relyingParty", .object [("name", .string "E")])])
    ⟨⟨none, "E", none⟩, some ⟨"AQ", "n", none⟩, "AAEC", [], none, none, [], .empty⟩ := by
  have hread : WireOptions.schema.Answers
      (.object [("relyingParty", .object [("name", .string "E")]),
        ("user", .object [("id", .string "AQ"), ("name", .string "n")]),
        ("challenge", .string "AAEC")])
      ⟨⟨none, "E", none⟩, some ⟨"AQ", "n", none⟩, "AAEC", [], none, none, [], .empty⟩ := by
    decide +kernel
  obtain ⟨halike, -, hstruct, hid, hname⟩ := variations_read_alike
  obtain ⟨huser, -⟩ := hstruct _ _ _ .wireUser
  obtain ⟨hoptions, -⟩ := hstruct _ _ _ .wireOptions
  -- the user stands under the options, as a member that may be null
  have hplace : Place WireUser.schema WireOptions.schema fun x =>
      .object ([("relyingParty", .object [("name", .string "E")])] ++
        ("user", x) :: [("challenge", .string "AAEC")]) :=
    .step (.step .here (.nullable _)) (.member _ (.there (by simp) (.here (.inl rfl))) _ _)
  have hid := Variation.inside hplace
    (.rename huser hid (.string "AQ") [] [("name", .string "n")])
  have hname := Variation.inside hplace
    (.rename huser hname (.string "n") [("userHandle", .string "AQ")] [])
  have hinsert := Variation.insert hoptions (by decide : standsFor? _ "version" = none)
    (.number (.integer 2)) [] [("relyingParty", .object [("name", .string "E")]),
      ("user", .object [("userHandle", .string "AQ"), ("username", .string "n")]),
      ("challenge", .string "AAEC")]
  have hreorder := Variation.reorder hoptions
    (List.Perm.cons ("version", Json.number (.integer 2)) (List.reverse_perm
      [("relyingParty", .object [("name", .string "E")]),
        ("user", .object [("userHandle", .string "AQ"), ("username", .string "n")]),
        ("challenge", .string "AAEC")]))
  have hchain := (((Relation.EqvGen.rel _ _ hreorder).trans _ _ _ (.symm _ _ (.rel _ _ hinsert))).trans
    _ _ _ (.rel _ _ hname)).trans _ _ _ (.rel _ _ hid)
  exact (halike _ _ _ _ hchain).trans hread

end CredentialCeremony
