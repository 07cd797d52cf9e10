import CredentialCeremony.Proofs.Text.Pieces

set_option autoImplicit false

/-!
# The parts of a text

The parts of a text are told by how it is written: there are blanks or nothing in front of each, no
blank in any of them, and a blank or the end of the text behind it. How many blanks stand between
two parts, and which, does not count.

Main statement: a text is written with these parts exactly if it is cut into them (`spaced_iff`).
-/

namespace CredentialCeremony.Text

/-- The text is written with these parts, in this order. -/
inductive Spaced : List Char → List (List Char) → Prop where
  | blanks {gap : List Char} (hgap : ∀ c ∈ gap, isBlank c = true) : Spaced gap []
  | part {gap part rest : List Char} {behind : List (List Char)}
      (hgap : ∀ c ∈ gap, isBlank c = true) (hne : part ≠ [])
      (hpart : ∀ c ∈ part, isBlank c = false) (hend : ∀ c ∈ rest.head?, isBlank c = true)
      (hrest : Spaced rest behind) : Spaced (gap ++ part ++ rest) (part :: behind)

/-! ## Cutting -/

theorem parts_cons_of_blank {c : Char} (hc : isBlank c = true) (s : List Char) :
    parts (c :: s) = parts s := by
  rw [parts, cut, if_pos hc]
  rfl

/-- Blanks in front of a text do not count. -/
theorem parts_append_of_blanks {gap : List Char} (hgap : ∀ c ∈ gap, isBlank c = true)
    (s : List Char) : parts (gap ++ s) = parts s := by
  induction gap with
  | nil => rfl
  | cons c gap ih =>
    obtain ⟨hc, hgap⟩ := List.forall_mem_cons.1 hgap
    rw [List.cons_append, parts_cons_of_blank hc, ih hgap]

theorem parts_of_no_blank {part : List Char} (hne : part ≠ [])
    (hpart : ∀ c ∈ part, isBlank c = false) : parts part = [part] := by
  have hsome : (!part.isEmpty) = true := by simpa using hne
  rw [parts, cut_eq_splitOnP, List.splitOnP_eq_singleton hpart]
  exact List.filter_cons_of_pos hsome

/-- A blank ends the part in front of it. -/
theorem parts_append_cons_of_blank {c : Char} (hc : isBlank c = true) (s rest : List Char) :
    parts (s ++ c :: rest) = parts s ++ parts rest := by
  rw [parts, parts, parts, cut_eq_splitOnP, cut_eq_splitOnP, cut_eq_splitOnP,
    List.splitOnP_append_cons s rest hc, List.filter_append]

/-- A text starts with a part where a blank or its end stands behind it. -/
theorem parts_append_of_part {part rest : List Char} (hne : part ≠ [])
    (hpart : ∀ c ∈ part, isBlank c = false) (hend : ∀ c ∈ rest.head?, isBlank c = true) :
    parts (part ++ rest) = part :: parts rest := by
  cases rest with
  | nil =>
    rw [List.append_nil]
    exact parts_of_no_blank hne hpart
  | cons c rest =>
    have hc : isBlank c = true := hend c rfl
    rw [parts_append_cons_of_blank hc, parts_of_no_blank hne hpart, parts_cons_of_blank hc]
    rfl

/-! ## Writing -/

theorem parts_of_spaced {s : List Char} {ps : List (List Char)} (h : Spaced s ps) :
    parts s = ps := by
  induction h with
  | @blanks gap hgap =>
    have hcut := parts_append_of_blanks hgap []
    rw [List.append_nil] at hcut
    rw [hcut]
    rfl
  | part hgap hne hpart hend _ ih =>
    rw [List.append_assoc, parts_append_of_blanks hgap, parts_append_of_part hne hpart hend, ih]

theorem Spaced.cons_of_blank {c : Char} {s : List Char} {ps : List (List Char)}
    (hc : isBlank c = true) (h : Spaced s ps) : Spaced (c :: s) ps := by
  cases h with
  | blanks hgap => exact .blanks (List.forall_mem_cons.2 ⟨hc, hgap⟩)
  | part hgap hne hpart hend hrest =>
    exact .part (List.forall_mem_cons.2 ⟨hc, hgap⟩) hne hpart hend hrest

/-- A character that is no blank is a part of its own, or the part behind it starts with it. -/
theorem Spaced.exists_cons {c : Char} {s : List Char} {ps : List (List Char)}
    (hc : isBlank c = false) (h : Spaced s ps) : ∃ qs, Spaced (c :: s) qs := by
  have hnone : ∀ d ∈ [], isBlank d = true := List.forall_mem_nil _
  by_cases hend : ∀ d ∈ s.head?, isBlank d = true
  · exact ⟨[c] :: ps, .part hnone (List.cons_ne_nil c []) (List.forall_mem_singleton.2 hc) hend h⟩
  · cases h with
    | blanks hgap =>
      apply absurd _ hend
      exact fun d hd => hgap d (List.mem_of_mem_head? hd)
    | @part gap part rest behind hgap hne hpart hrestEnd hrest =>
      cases gap with
      | nil =>
        exact ⟨(c :: part) :: behind, .part hnone (List.cons_ne_nil c part)
          (List.forall_mem_cons.2 ⟨hc, hpart⟩) hrestEnd hrest⟩
      | cons d gap =>
        apply absurd _ hend
        rintro _ ⟨⟩
        exact hgap d List.mem_cons_self

theorem exists_spaced (s : List Char) : ∃ ps, Spaced s ps := by
  induction s with
  | nil => exact ⟨[], .blanks (List.forall_mem_nil _)⟩
  | cons c s ih =>
    obtain ⟨ps, hps⟩ := ih
    cases hc : isBlank c with
    | true => exact ⟨ps, hps.cons_of_blank hc⟩
    | false => exact hps.exists_cons hc

theorem spaced_iff {s : List Char} {ps : List (List Char)} : Spaced s ps ↔ parts s = ps := by
  constructor
  · exact parts_of_spaced
  · rintro rfl
    obtain ⟨ps, hspaced⟩ := exists_spaced s
    rwa [parts_of_spaced hspaced]

end CredentialCeremony.Text
