import CredentialCeremony.Proofs.Availability.Version

set_option autoImplicit false

/-!
# How a version is written

A version is written as segments with dots between them, each with or without a plus sign and with
any number of zeros in front. Such a text has no blanks in it, so it is told from the blanks that
may stand around it.

Main statements: a version is read off a text exactly if the core of the text spells it
(`ofText?_eq_some_iff_of_core`), and what is written for a version spells the version
(`spelled_text`).
-/

namespace CredentialCeremony.Version

/-- A segment as it is written: a numeral, with or without a plus sign in front. -/
def Signed (piece : List Char) (n : UInt64) : Prop :=
  ∃ digits, (piece = digits ∨ piece = '+' :: digits) ∧ Numeral digits n

/-- Segments with dots between them. -/
def Spelled (text : List Char) (v : Version) : Prop :=
  ∃ pieces, pieces ≠ [] ∧ text = ['.'].intercalate pieces ∧ List.Forall₂ Signed pieces v.segments

variable {text core piece : List Char} {v w : Version} {n : UInt64} {c : Char}

/-! ## Characters -/

theorem Signed.isDigit_or_eq_plus (h : Signed piece n) (hc : c ∈ piece) :
    c.isDigit = true ∨ c = '+' := by
  obtain ⟨digits, rfl | rfl, hdigits⟩ := h
  · exact .inl (hdigits.isDigit c hc)
  · rcases List.mem_cons.1 hc with rfl | hc
    · exact .inr rfl
    · exact .inl (hdigits.isDigit c hc)

theorem Signed.ne_nil (h : Signed piece n) : piece ≠ [] := by
  obtain ⟨digits, rfl | rfl, hdigits⟩ := h
  · exact hdigits.ne_nil
  · exact List.cons_ne_nil '+' digits

/-- A segment holds no dot, so that it is not cut. -/
theorem Signed.dot_not_mem (h : Signed piece n) : '.' ∉ piece := by
  intro hdot
  rcases h.isDigit_or_eq_plus hdot with hdigit | hplus
  · exact absurd hdigit (by decide)
  · exact absurd hplus (by decide)

theorem exists_signed_of_mem {pieces : List (List Char)} {segments : List UInt64}
    (h : List.Forall₂ Signed pieces segments) (hpiece : piece ∈ pieces) : ∃ n, Signed piece n := by
  have hboth : List.Forall₂ (fun piece n => (∃ n, Signed piece n) ∧ Signed piece n) pieces
      segments := h.imp fun piece n hsigned => ⟨⟨n, hsigned⟩, hsigned⟩
  exact ((List.forall₂_and_left _ _).1 hboth).1 piece hpiece

/-- Joined segments are cut apart again. -/
theorem cut_of_signed {pieces : List (List Char)} {segments : List UInt64} (hne : pieces ≠ [])
    (h : List.Forall₂ Signed pieces segments) :
    Text.cut (· == '.') (['.'].intercalate pieces) = pieces := by
  apply Text.cut_intercalate hne
  intro piece hpiece
  obtain ⟨n, hsigned⟩ := exists_signed_of_mem h hpiece
  exact hsigned.dot_not_mem

/-- The characters of what is joined are those of the pieces and of the separator. -/
theorem mem_of_mem_intercalate {sep : Char} {pieces : List (List Char)}
    (hc : c ∈ [sep].intercalate pieces) : c = sep ∨ ∃ piece ∈ pieces, c ∈ piece := by
  induction pieces with
  | nil => cases hc
  | cons piece pieces ih =>
    cases pieces with
    | nil =>
      rw [List.intercalate_singleton] at hc
      exact .inr ⟨piece, List.mem_cons_self, hc⟩
    | cons next pieces =>
      rw [List.intercalate_cons_cons, List.append_assoc, List.mem_append, List.mem_append,
        List.mem_singleton] at hc
      rcases hc with hc | rfl | hc
      · exact .inr ⟨piece, List.mem_cons_self, hc⟩
      · exact .inl rfl
      · rcases ih hc with rfl | ⟨other, hother, hc⟩
        · exact .inl rfl
        · exact .inr ⟨other, List.mem_cons_of_mem piece hother, hc⟩

theorem Spelled.mem_cases (h : Spelled text v) (hc : c ∈ text) :
    c.isDigit = true ∨ c = '+' ∨ c = '.' := by
  obtain ⟨pieces, -, rfl, hpieces⟩ := h
  rcases mem_of_mem_intercalate hc with rfl | ⟨piece, hpiece, hc⟩
  · exact .inr (.inr rfl)
  · obtain ⟨n, hsigned⟩ := exists_signed_of_mem hpieces hpiece
    rcases hsigned.isDigit_or_eq_plus hc with hdigit | hplus
    · exact .inl hdigit
    · exact .inr (.inl hplus)

theorem Spelled.isBlank_eq_false (h : Spelled text v) : ∀ c ∈ text, Text.isBlank c = false := by
  intro c hc
  rcases h.mem_cases hc with hdigit | rfl | rfl
  · exact Text.isBlank_of_isDigit hdigit
  · rfl
  · rfl

theorem Spelled.ne_nil (h : Spelled text v) : text ≠ [] := by
  obtain ⟨pieces, hne, rfl, hpieces⟩ := h
  intro hnone
  have hcut := cut_of_signed hne hpieces
  rw [hnone] at hcut
  -- the only piece of the empty text is empty itself
  have hempty : [] ∈ pieces := by
    rw [← hcut]
    exact List.mem_singleton_self []
  obtain ⟨n, hsigned⟩ := exists_signed_of_mem hpieces hempty
  exact hsigned.ne_nil rfl

/-- A version in a text has a segment. -/
theorem Spelled.segments_ne_nil (h : Spelled text v) : v.segments ≠ [] := by
  obtain ⟨pieces, hne, -, hpieces⟩ := h
  intro hnone
  rw [hnone, List.forall₂_nil_right_iff] at hpieces
  exact hne hpieces

/-! ## Reading -/

/-- A text spells a version by its pieces. -/
theorem spelled_iff_of_split {pieces : List (List Char)} (hsplit : Text.IsSplit '.' pieces text) :
    Spelled text v ↔ List.Forall₂ Signed pieces v.segments :=
  hsplit.exists_joined_iff fun _ _ hsigned => hsigned.dot_not_mem

/-- A version is read exactly off the texts whose cores spell it. -/
theorem ofText?_eq_some_iff_of_core (hcore : Text.IsCore core text) :
    ofText? text = some v ↔ Spelled core v := by
  rw [ofText?_eq_some_iff_cut, hcore.trim_eq, spelled_iff_of_split (Text.isSplit_cut '.' core)]
  constructor
  · exact fun h => h.imp fun piece n hpiece => segment?_eq_some_iff.1 hpiece
  · exact fun h => h.imp fun piece n hpiece => segment?_eq_some_iff.2 hpiece

/-- A text spells one version at most. -/
theorem Spelled.unique (hv : Spelled text v) (hw : Spelled text w) : v = w := by
  have hcore : Text.IsCore text text := Text.isCore_of_no_blank hv.isBlank_eq_false
  have hread := (ofText?_eq_some_iff_of_core hcore).2 hv
  rw [(ofText?_eq_some_iff_of_core hcore).2 hw] at hread
  exact (Option.some.inj hread).symm

/-! ## Writing -/

theorem ofDigitChars_eq_valueOf (digits : List Char) :
    Nat.ofDigitChars 10 digits 0 = valueOf digits := by
  rw [Nat.ofDigitChars_eq_foldl]
  exact foldl_digits digits

/-- The digits of a number are a numeral for it. -/
theorem numeral_toDigits (n : UInt64) : Numeral (Nat.toDigits 10 n.toNat) n := by
  refine ⟨Nat.toDigits_ne_nil, ?_, ?_⟩
  · exact fun c hc => Nat.isDigit_of_mem_toDigits (by decide) (by decide) hc
  · rw [← ofDigitChars_eq_valueOf]
    exact Nat.ofDigitChars_ten_toDigits

theorem toList_text (v : Version) :
    v.text.toList = ['.'].intercalate (v.segments.map fun n => Nat.toDigits 10 n.toNat) := by
  rw [text, String.toList_intercalate, List.map_map]
  congr 2
  funext n
  rw [Function.comp_apply, Nat.toString_eq_repr, Nat.toList_repr]

/-- What is written for a version with a segment spells this version. -/
theorem spelled_text (hne : v.segments ≠ []) : Spelled v.text.toList v := by
  refine ⟨_, ?_, toList_text v, ?_⟩
  · exact fun hnone => hne (List.map_eq_nil_iff.1 hnone)
  · rw [List.forall₂_map_left_iff]
    exact List.forall₂_same.2 fun n _ => ⟨_, .inl rfl, numeral_toDigits n⟩

end CredentialCeremony.Version
