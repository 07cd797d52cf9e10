import CredentialCeremony.Proofs.Json.Resolution
import CredentialCeremony.Submission

set_option autoImplicit false

/-!
# Names of the fields of a submission

A submission has a value for each of its keys, in a fixed order (`Submission.valuesByKey`). The
parameters of the server do nothing but rename the keys (`Submission.encode_fields`), so no more of
them counts than what they map these keys to (`Submission.encode_congr`), and a field is found by
its name as far as no earlier one has the same name.

Main statement: `Submission.encode_follows_names`.
-/

namespace CredentialCeremony.Submission

variable {parameters : Parameters} {credential : AssertedCredential} {username : Option String}

/-! ## Keys and values -/

/-- The keys that the server may choose a name for. -/
def keys : List String :=
  ["username", "credentialId", "clientDataJSON", "authenticatorData", "signature",
    "clientExtensionsJSON"]

/-- The keys that a submission has a field for, in order, each with its value. -/
def valuesByKey (credential : AssertedCredential) (username : Option String) :
    List (String × String) :=
  (username.map fun name => ("username", name)).toList ++ [
    ("credentialId", Base64.encode credential.rawId),
    ("clientDataJSON", Base64.encode credential.response.clientData),
    ("authenticatorData", Base64.encode credential.response.authenticatorData),
    ("signature", Base64.encode credential.response.signature),
    ("clientExtensionsJSON", extensionOutputsSchema.text credential.extensionOutputs)]

/-- There is a value for each key, except that the username may be missing. -/
theorem map_fst_valuesByKey (credential : AssertedCredential) (username : Option String) :
    (valuesByKey credential username).map Prod.fst =
      if username.isSome then keys else keys.tail := by
  cases username <;> rfl

theorem mem_keys_of_mem_valuesByKey {entry : String × String}
    (h : entry ∈ valuesByKey credential username) : entry.1 ∈ keys := by
  have hkey : entry.1 ∈ (valuesByKey credential username).map Prod.fst := List.mem_map_of_mem h
  rw [map_fst_valuesByKey] at hkey
  split at hkey
  · exact hkey
  · exact List.mem_of_mem_tail hkey

/-- The fields are the values under the names of their keys. -/
theorem encode_fields (parameters : Parameters) (credential : AssertedCredential)
    (username : Option String) : (encode parameters credential username).fields =
      (valuesByKey credential username).map fun entry => (fieldName parameters entry.1, entry.2) := by
  cases username <;> rfl

/-! ## What counts of the parameters -/

theorem fieldName_of_mapped {key name : String} (h : parameters.get? key = some name) :
    fieldName parameters key = name := by
  rw [fieldName, h, Option.getD_some]

theorem fieldName_of_unmapped {key : String} (h : parameters.get? key = none) :
    fieldName parameters key = key := by
  rw [fieldName, h, Option.getD_none]

/-- Parameters that name the keys alike make the same submission. -/
theorem encode_congr {others : Parameters}
    (h : ∀ key ∈ keys, parameters.get? key = others.get? key) :
    encode parameters credential username = encode others credential username := by
  have hfields : (encode parameters credential username).fields =
      (encode others credential username).fields := by
    rw [encode_fields, encode_fields]
    apply List.map_congr_left
    intro entry hentry
    rw [fieldName, fieldName, h entry.1 (mem_keys_of_mem_valuesByKey hentry)]
  exact congrArg Submission.mk hfields

/-- The entries of the parameters under the keys. -/
def keyEntries (parameters : Parameters) : List (String × String) :=
  parameters.entries.filter fun entry => entry.1 ∈ keys

theorem mem_keyEntries_iff {key name : String} (hkey : key ∈ keys) :
    (key, name) ∈ keyEntries parameters ↔ parameters.get? key = some name := by
  rw [keyEntries, List.mem_filter, decide_eq_true_eq, and_iff_left hkey,
    Dictionary.get?_eq_some_iff]

/-- The keys have the same names wherever their entries stand and whatever else there is. -/
theorem encode_of_perm {others : Parameters}
    (h : (keyEntries parameters).Perm (keyEntries others)) :
    encode parameters credential username = encode others credential username := by
  apply encode_congr
  intro key hkey
  apply Option.ext
  intro name
  rw [← mem_keyEntries_iff hkey, ← mem_keyEntries_iff hkey, h.mem_iff]

/-! ## Fields by their names -/

/-- A field is found by its name if no field in front of it has that name. -/
theorem get?_encode_eq_some_iff {name value : String} :
    (encode parameters credential username).get? name = some value ↔
      ∃ before key behind, valuesByKey credential username = before ++ (key, value) :: behind ∧
        fieldName parameters key = name ∧
          ∀ earlier ∈ before, fieldName parameters earlier.1 ≠ name := by
  rw [get?, encode_fields, List.lookup_eq_some_iff]
  constructor
  · rintro ⟨fieldsBefore, fieldsBehind, hsplit, hother⟩
    obtain ⟨before, rest, hvalues, rfl, hrest⟩ := List.map_eq_append_iff.1 hsplit
    obtain ⟨⟨key, _⟩, behind, rfl, hfield, -⟩ := List.map_eq_cons_iff.1 hrest
    obtain ⟨hname, rfl⟩ := Prod.mk.inj hfield
    refine ⟨before, key, behind, hvalues, hname, ?_⟩
    intro earlier hearlier
    have hne := hother _ (List.mem_map_of_mem hearlier)
    exact Ne.symm (bne_iff_ne.1 hne)
  · rintro ⟨before, key, behind, hvalues, rfl, hother⟩
    rw [hvalues, List.map_append, List.map_cons]
    refine ⟨_, _, rfl, ?_⟩
    intro field hfield
    obtain ⟨earlier, hearlier, rfl⟩ := List.mem_map.1 hfield
    exact bne_iff_ne.2 (Ne.symm (hother earlier hearlier))

/-- Nothing is found under a name that no key has. -/
theorem get?_encode_eq_none_iff {name : String} :
    (encode parameters credential username).get? name = none ↔
      ∀ entry ∈ valuesByKey credential username, fieldName parameters entry.1 ≠ name := by
  rw [get?, encode_fields, List.lookup_eq_none_iff, List.forall_mem_map]
  simp only [bne_iff_ne, ne_comm]

/-- Where all names differ, every value is found under the name of its key. -/
theorem get?_fieldName {entry : String × String}
    (h : ((valuesByKey credential username).map fun entry => fieldName parameters entry.1).Nodup)
    (hentry : entry ∈ valuesByKey credential username) :
    (encode parameters credential username).get? (fieldName parameters entry.1) =
      some entry.2 := by
  obtain ⟨before, behind, hvalues⟩ := List.append_of_mem hentry
  refine get?_encode_eq_some_iff.2 ⟨before, entry.1, behind, hvalues, rfl, ?_⟩
  intro earlier hearlier hname
  rw [hvalues, List.map_append, List.nodup_append] at h
  exact h.2.2 _ (List.mem_map_of_mem hearlier) _ List.mem_cons_self hname

/-! ## Names and nothing else -/

/-- A submission has the username if there is one, and the values of the credential, in this order and
each under the name that the server maps its key to, or under the key itself. Nothing but the entries
under the six keys counts of the parameters, and not their order. A name is that of the first field
which has it, or of none; if all names differ, each value is found under the name of its key. -/
theorem encode_follows_names (parameters : Parameters) (credential : AssertedCredential)
    (username : Option String) :
    let submission := encode parameters credential username
    submission.fields =
      (username.map fun name => (fieldName parameters "username", name)).toList ++ [
        (fieldName parameters "credentialId", Base64.encode credential.rawId),
        (fieldName parameters "clientDataJSON", Base64.encode credential.response.clientData),
        (fieldName parameters "authenticatorData",
          Base64.encode credential.response.authenticatorData),
        (fieldName parameters "signature", Base64.encode credential.response.signature),
        (fieldName parameters "clientExtensionsJSON",
          extensionOutputsSchema.text credential.extensionOutputs)] ∧
      (∀ key name, parameters.get? key = some name → fieldName parameters key = name) ∧
      (∀ key, parameters.get? key = none → fieldName parameters key = key) ∧
      (∀ others : Parameters, (keyEntries parameters).Perm (keyEntries others) →
        encode others credential username = submission) ∧
      (((valuesByKey credential username).map fun entry => fieldName parameters entry.1).Nodup →
        ∀ entry ∈ valuesByKey credential username,
          submission.get? (fieldName parameters entry.1) = some entry.2) ∧
      (∀ name, submission.get? name = none ↔
        ∀ entry ∈ valuesByKey credential username, fieldName parameters entry.1 ≠ name) ∧
      ∀ name value, submission.get? name = some value ↔
        ∃ before key behind, valuesByKey credential username = before ++ (key, value) :: behind ∧
          fieldName parameters key = name ∧
            ∀ earlier ∈ before, fieldName parameters earlier.1 ≠ name := by
  intro submission
  refine ⟨rfl, ?_, ?_, ?_, ?_, ?_, ?_⟩
  · intro key name
    exact fieldName_of_mapped
  · intro key
    exact fieldName_of_unmapped
  · intro others hperm
    exact (encode_of_perm hperm).symm
  · intro hnodup entry
    exact get?_fieldName hnodup
  · intro name
    exact get?_encode_eq_none_iff
  · intro name value
    exact get?_encode_eq_some_iff

/-- The entries of two bags under the keys are the same in another order, beside a password in one of
them and a token in the other; an empty name is a name. Where the name of one key is another key, the
earlier of the two fields is found. -/
theorem encode_follows_names_of_collision :
    ∃ (first second third : Parameters) (credential : AssertedCredential),
      first.entries = [("password", "pass"), ("signature", "sig"), ("username", "")] ∧
        second.entries = [("username", ""), ("token", "t"), ("signature", "sig")] ∧
        third.entries = [("credentialId", "signature")] ∧ credential.rawId = [1, 2, 3] ∧
        encode second credential (some "alice") = encode first credential (some "alice") ∧
        (encode first credential (some "alice")).get? "" = some "alice" ∧
        (encode first credential (some "alice")).get? "password" = none ∧
        fieldName first "signature" = "sig" ∧ fieldName first "credentialId" = "credentialId" ∧
        (encode third credential none).get? "signature" = some "AQID" := by
  let credential : AssertedCredential :=
    ⟨"AQID", [1, 2, 3], .publicKey, ⟨[2], [3], [4], none⟩, none, default⟩
  let first : Parameters := ⟨[("password", "pass"), ("signature", "sig"), ("username", "")], by decide⟩
  let second : Parameters := ⟨[("username", ""), ("token", "t"), ("signature", "sig")], by decide⟩
  let third : Parameters := ⟨[("credentialId", "signature")], by decide⟩
  obtain ⟨-, hmapped, hunmapped, hperm, hdistinct, hnone, -⟩ :=
    encode_follows_names first credential (some "alice")
  obtain ⟨-, -, -, -, -, -, hearliest⟩ := encode_follows_names third credential none
  refine ⟨first, second, third, credential, rfl, rfl, rfl, rfl, ?_, ?_, ?_, ?_, ?_, ?_⟩
  · exact hperm second (.swap ("username", "") ("signature", "sig") [])
  · exact hdistinct (by decide) ("username", "alice") List.mem_cons_self
  · exact (hnone "password").2 (by decide +kernel)
  · exact hmapped "signature" "sig" rfl
  · exact hunmapped "credentialId" rfl
  · exact (hearliest "signature" "AQID").2 ⟨[], "credentialId", _, rfl, rfl, by simp⟩

end CredentialCeremony.Submission
