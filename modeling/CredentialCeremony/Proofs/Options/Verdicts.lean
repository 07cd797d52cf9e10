import CredentialCeremony.Proofs.Options.LenientFields
import CredentialCeremony.Proofs.Options.Structs
import CredentialCeremony.Proofs.Schema.Reported

set_option autoImplicit false

/-!
# What is reported of the records of a ceremony

Main statement: an object in a text, every member of which is read by the field it stands for, is
refused for the first member that repeats a field, else for the first field that is missing, and else
read (`repeats_and_gaps_reported`).
-/

namespace CredentialCeremony

open Reader Schema

/-- A lenient choice reads what writes one of its alternatives as this alternative, and ends behind
it. -/
theorem Schema.Lenient.readsAs_known {β γ : Type} {field : Schema β} {names : Choice γ}
    {known : γ → β} {default : β} (h : field.Lenient names known default) {depth : Nat} {v : γ}
    {json : Json} {item behind : Bytes} (hv : names.Spells v json) (hdepth : json.depth ≤ depth)
    (hspelled : json.Spelled item behind) : field.ReadsAs depth item (known v) := by
  have hpasses : names.passes json = true := by
    obtain ⟨name, hname, rfl | rfl⟩ := hv
    · exact choice_passes_iff.2 (.inl ⟨name, rfl⟩)
    · exact choice_passes_iff.2 (.inr ⟨name, v, rfl, hname⟩)
  refine .of_tame hspelled hdepth ?_ (h.answers_known hv)
  cases h with
  | choice => exact hpasses
  | option => rw [tame, hpasses, Bool.or_true]

variable {α τ σ : Type} {fields : Fields τ σ} {layout : Layout τ α} {declared : List FieldInfo}
  {members : List (String × Bytes)} {text : Bytes}

/-- An object in a text, every member of which is JSON and read by the field that it stands for, is
refused with the name of the first field that a member repeats, in the order of the text; if none is
repeated, with the first one that has to be there and is not, in the order of the record; and else it
is read as what the members give, absent fields as what they are without a member. There always is
one such verdict. A field reads what a tree gives for a tame value; one that tolerates unknown values
reads each of its alternatives, in both forms, and null where it may be absent. -/
theorem repeats_and_gaps_reported (h : StructType (.record fields layout) declared)
    (htext : (Outline.object members).Of text)
    (hreads : ∀ member ∈ members, fields.ReadsMember (maxDepth - 1) member.1 member.2) :
    (∃! r, Verdict declared (members.map Prod.fst) r) ∧
    (∀ r, Verdict declared (members.map Prod.fst) r →
      fields.Reported layout members ((Schema.record fields layout).readText text).outcome r) ∧
    (∀ (β : Type) (field : Schema β) json item behind b, json.Spelled item behind →
      json.depth ≤ maxDepth - 1 → field.tame json = true → field.Answers json b →
        field.ReadsAs (maxDepth - 1) item b) ∧
    (∀ (β γ : Type) (field : Schema β) (names : Choice γ) (known : γ → β) (default : β),
      field.Lenient names known default → ∀ v json item behind, names.Spells v json →
        json.Spelled item behind → field.ReadsAs (maxDepth - 1) item (known v)) ∧
    ∀ (γ : Type) (names : Choice γ) item behind, Json.null.Spelled item behind →
      (lenientOption names).ReadsAs (maxDepth - 1) item none := by
  obtain ⟨_, _, _, _, hrecord, rfl⟩ := h.declares
  cases hrecord
  refine ⟨?_, ?_, ?_, ?_, ?_⟩
  · obtain ⟨r, hr⟩ := Verdict.exists_verdict fields.declared (members.map Prod.fst)
    exact ⟨r, hr, fun other hother => hother.unique hr⟩
  · intro r hr
    exact Fields.reported_of_verdict htext hreads hr
  · intro β field json item behind b hspelled hdepth htame hb
    exact .of_tame hspelled hdepth htame hb
  · intro β γ field names known default hfield v json item behind hv hspelled
    refine hfield.readsAs_known hv ?_ hspelled
    obtain ⟨name, -, rfl | rfl⟩ := hv
    · exact Nat.zero_le _
    · exact Nat.succ_le_succ (Nat.zero_le _)
  · intro γ names item behind hspelled
    exact .of_tame hspelled (by decide) rfl rfl

/-- The id of a user is given again under its older name. -/
theorem repeats_and_gaps_reported_of_user : (WireUser.schema.readText
    (utf8 "\x7b\"id\":\"AQ\",\"userHandle\":\"Ag\",\"name\":\"n\"\x7d")).outcome =
      .error (.duplicateField "id") := by
  have htree : (Json.object
      [("id", .string "AQ"), ("userHandle", .string "Ag"), ("name", .string "n")]).IsTreeOf
        (utf8 "\x7b\"id\":\"AQ\",\"userHandle\":\"Ag\",\"name\":\"n\"\x7d") := by
    decide +kernel
  have hverdict : Verdict WireUser.declared (["id"] ++ "userHandle" :: ["name"])
      (some (.duplicateField "id")) := by
    have hfront : (positions WireUser.declared ["id"]).Nodup := by decide
    have hstands : standsFor? WireUser.declared "userHandle" = some 0 := rfl
    exact .duplicate hfront hstands (by decide) rfl
  obtain ⟨members, hnames, htext, hreads⟩ := Fields.exists_members_of_tree
    (.cons "id" ["userHandle"] .string .required <| .cons "name" ["username"] .string .required <|
      .optional "displayName" (.nullable .string) .nil) htree (by decide +kernel)
  have hnames : members.map Prod.fst = ["id"] ++ "userHandle" :: ["name"] := hnames
  exact (repeats_and_gaps_reported .wireUser htext hreads).2.1 _ (hnames ▸ hverdict)

end CredentialCeremony
