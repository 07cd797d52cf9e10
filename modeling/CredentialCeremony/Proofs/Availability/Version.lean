import CredentialCeremony.Availability.Version
import CredentialCeremony.Proofs.Text.Pieces
import CredentialCeremony.Proofs.Traversal
import Mathlib.Data.List.GetD
import Mathlib.Data.List.Induction
import Mathlib.Data.Nat.Digits.Defs

set_option autoImplicit false

/-!
# What a version is and which of two is greater

A dotted version is a sequence of numerals with dots between them; each numeral spells a segment.
Versions are compared at the first place where they differ, a missing segment being zero.

Main statements: the text of a dotted version is read as just this version (`ofText?_eq_some_iff`),
and one version is greater than another exactly if its segment is greater where they first differ
(`compare_eq_gt_iff`).
-/

namespace CredentialCeremony.Version

/-! ## Numerals -/

/-- The number that digits spell in base ten. -/
def valueOf (digits : List Char) : Nat :=
  Nat.ofDigits 10 (digits.reverse.map fun c => c.toNat - '0'.toNat)

/-- One or more digits that spell a number of 64 bits. -/
structure Numeral (digits : List Char) (n : UInt64) : Prop where
  ne_nil : digits ≠ []
  isDigit : ∀ c ∈ digits, c.isDigit = true
  value : valueOf digits = n.toNat

theorem foldl_digits (digits : List Char) :
    digits.foldl (fun n c => 10 * n + (c.toNat - 48)) 0 = valueOf digits := by
  -- the last digit is the one that counts once
  induction digits using List.reverseRecOn with
  | nil => rfl
  | append_singleton digits c ih =>
    rw [List.foldl_concat, ih, valueOf, valueOf, List.reverse_concat, List.map_cons,
      Nat.ofDigits_cons, Nat.add_comm]
    rfl

/-- What stands behind a plus sign, if there is one, is the numeral of a segment. -/
theorem segment?_eq_some_iff_of_unsigned {text digits : List Char} {n : UInt64}
    (h : (if text.head? = some '+' then text.tail else text) = digits) :
    segment? text = some n ↔ Numeral digits n := by
  unfold segment?
  rw [h]
  dsimp only
  rw [foldl_digits]
  split
  · rename_i hbad
    apply iff_of_false
    · rintro ⟨⟩
    · rintro ⟨hne, hdigits, -⟩
      rcases hbad with hempty | hall
      · exact hne (List.isEmpty_iff.1 hempty)
      · exact hall (List.all_eq_true.2 hdigits)
  · rename_i hgood
    rw [not_or, not_not, List.isEmpty_iff, List.all_eq_true] at hgood
    constructor
    · intro hvalue
      split at hvalue
      · rename_i hlt
        cases hvalue
        exact ⟨hgood.1, hgood.2, (UInt64.toNat_ofNat_of_lt' hlt).symm⟩
      · cases hvalue
    · rintro ⟨-, -, hvalue⟩
      rw [hvalue, if_pos n.toNat_lt, UInt64.ofNat_toNat]

/-- A segment is a numeral, with or without a plus sign in front. -/
theorem segment?_eq_some_iff {text : List Char} {n : UInt64} :
    segment? text = some n ↔
      ∃ digits, (text = digits ∨ text = '+' :: digits) ∧ Numeral digits n := by
  constructor
  · intro h
    refine ⟨_, ?_, (segment?_eq_some_iff_of_unsigned rfl).1 h⟩
    split
    · rename_i hsign
      obtain ⟨rest, rfl⟩ := List.head?_eq_some_iff.1 hsign
      exact .inr rfl
    · exact .inl rfl
  · rintro ⟨digits, rfl | rfl, hdigits⟩
    · refine (segment?_eq_some_iff_of_unsigned (if_neg ?_)).2 hdigits
      intro hsign
      exact absurd (hdigits.isDigit '+' (List.mem_of_mem_head? hsign)) (by decide)
    · exact (segment?_eq_some_iff_of_unsigned (if_pos rfl)).2 hdigits

/-! ## Texts -/

/-- A version is read from the pieces between the dots, the blanks around the text aside. -/
theorem ofText?_eq_some_iff_cut {text : List Char} {v : Version} :
    ofText? text = some v ↔
      List.Forall₂ (fun piece n => segment? piece = some n)
        (Text.cut (· == '.') (Text.trim text)) v.segments := by
  rw [ofText?, Option.map_eq_some_iff, ← mapM_eq_some_iff]
  constructor
  · rintro ⟨segments, hsegments, rfl⟩
    exact hsegments
  · intro h
    exact ⟨v.segments, h, rfl⟩

/-- Numerals with dots between them that spell the segments of a version; a number that needs more
than 64 bits is no segment. -/
def Dotted (text : List Char) (v : Version) : Prop :=
  ∃ numerals, numerals ≠ [] ∧ text = ['.'].intercalate numerals ∧
    List.Forall₂ Numeral numerals v.segments

/-- Whether a character belongs to a version in a text. -/
def isDigitOrDot (c : Char) : Bool := c.isDigit || c == '.'

theorem isBlank_of_isDigitOrDot {c : Char} (h : isDigitOrDot c = true) :
    Text.isBlank c = false := by
  rcases Bool.or_eq_true_iff.1 h with hdigit | hdot
  · exact Text.isBlank_of_isDigit hdigit
  · rw [beq_iff_eq.1 hdot]
    rfl

theorem Numeral.dot_not_mem {digits : List Char} {n : UInt64} (h : Numeral digits n) :
    '.' ∉ digits := by
  intro hdot
  exact absurd (h.isDigit '.' hdot) (by decide)

/-- A text is a dotted version by its pieces. -/
theorem dotted_iff_of_split {pieces : List (List Char)} {text : List Char} {v : Version}
    (hsplit : Text.IsSplit '.' pieces text) :
    Dotted text v ↔ List.Forall₂ Numeral pieces v.segments :=
  hsplit.exists_joined_iff fun _ _ hnumeral => hnumeral.dot_not_mem

/-- A text of digits and dots is read as a version exactly if it is a dotted version. -/
theorem ofText?_eq_some_iff {text : List Char} {v : Version}
    (h : ∀ c ∈ text, isDigitOrDot c = true) : ofText? text = some v ↔ Dotted text v := by
  have hblank : ∀ c ∈ text, Text.isBlank c = false := fun c hc => isBlank_of_isDigitOrDot (h c hc)
  rw [ofText?_eq_some_iff_cut, Text.trim_of_no_blank hblank,
    dotted_iff_of_split (Text.isSplit_cut '.' text)]
  constructor
  · intro hsegments
    have hunsigned : ∀ piece ∈ Text.cut (· == '.') text, '+' ∉ piece := by
      intro piece hpiece hsign
      exact absurd (h '+' (Text.mem_of_mem_cut hsign hpiece)) (by decide)
    refine ((List.forall₂_and_left _ _).2 ⟨hunsigned, hsegments⟩).imp ?_
    rintro piece n ⟨hsign, hpiece⟩
    obtain ⟨digits, rfl | rfl, hdigits⟩ := segment?_eq_some_iff.1 hpiece
    · exact hdigits
    · exact absurd List.mem_cons_self hsign
  · intro hnumerals
    refine hnumerals.imp ?_
    intro numeral n hnumeral
    exact segment?_eq_some_iff.2 ⟨numeral, .inl rfl, hnumeral⟩

/-! ## Order -/

/-- The segment at a place; a missing one counts as zero. -/
def segmentAt (v : Version) (i : Nat) : UInt64 := v.segments.getD i 0

/-- The version has the greater segment at the first place where the two differ. -/
def Exceeds (v w : Version) : Prop :=
  ∃ i, w.segmentAt i < v.segmentAt i ∧ ∀ j < i, v.segmentAt j = w.segmentAt j

theorem headD_eq_getD (ys : List UInt64) : ys.headD 0 = ys.getD 0 0 := by
  cases ys <;> rfl

theorem getD_tail (ys : List UInt64) (i : Nat) : ys.tail.getD i 0 = ys.getD (i + 1) 0 := by
  cases ys with
  | nil => rw [List.tail_nil, List.getD_nil, List.getD_nil]
  | cons y ys => rw [List.tail_cons, List.getD_cons_succ]

/-- Segments are all zero exactly if there is a zero at every place. -/
theorem all_zero_iff {ys : List UInt64} :
    ys.all (· == 0) = true ↔ ∀ i, ys.getD i 0 = 0 := by
  rw [List.all_eq_true]
  constructor
  · intro h i
    by_cases hi : i < ys.length
    · rw [List.getD_eq_getElem ys 0 hi]
      exact beq_iff_eq.1 (h _ (List.getElem_mem hi))
    · exact List.getD_eq_default ys 0 (Nat.le_of_not_lt hi)
  · intro h y hy
    obtain ⟨i, hi, rfl⟩ := List.getElem_of_mem hy
    rw [beq_iff_eq, ← List.getD_eq_getElem ys 0 hi]
    exact h i

/-- Segments that differ nowhere are equal under the order. -/
theorem compareSegments_of_getD_eq {xs ys : List UInt64} (h : ∀ i, xs.getD i 0 = ys.getD i 0) :
    compareSegments xs ys = .eq := by
  induction xs generalizing ys with
  | nil =>
    have hzero : ∀ i, ys.getD i 0 = 0 := fun i => (h i).symm
    rw [compareSegments, if_pos (all_zero_iff.2 hzero)]
  | cons x xs ih =>
    have hfirst : ys.headD 0 = x := by
      rw [headD_eq_getD, ← h 0, List.getD_cons_zero]
    have hrest : compareSegments xs ys.tail = .eq := by
      refine ih fun i => ?_
      rw [getD_tail, ← h (i + 1), List.getD_cons_succ]
    rw [compareSegments, hrest, hfirst, Std.ReflOrd.compare_self]
    rfl

/-- Segments are compared at the first place where they differ. -/
theorem compareSegments_of_first {xs ys : List UInt64} {i : Nat}
    (hdiffer : xs.getD i 0 ≠ ys.getD i 0) (hbefore : ∀ j < i, xs.getD j 0 = ys.getD j 0) :
    compareSegments xs ys = Ord.compare (xs.getD i 0) (ys.getD i 0) := by
  -- on the segments of the first version: behind its last one, only zeros are left
  induction xs generalizing ys i with
  | nil =>
    rw [List.getD_nil] at hdiffer ⊢
    have hsome : ¬ ys.all (· == 0) = true := by
      intro hall
      exact hdiffer (all_zero_iff.1 hall i).symm
    have hpos : (0 : UInt64) < ys.getD i 0 := UInt64.pos_iff_ne_zero.2 (Ne.symm hdiffer)
    rw [compareSegments, if_neg hsome, eq_comm, Std.compare_eq_lt]
    exact hpos
  | cons x xs ih =>
    cases i with
    | zero =>
      rw [List.getD_cons_zero, ← headD_eq_getD] at hdiffer ⊢
      have hne : Ord.compare x (ys.headD 0) ≠ .eq := Std.compare_ne_eq_iff_ne.2 hdiffer
      rw [compareSegments]
      cases hfirst : Ord.compare x (ys.headD 0) with
      | lt => rfl
      | eq => exact absurd hfirst hne
      | gt => rfl
    | succ i =>
      have hfirst : ys.headD 0 = x := by
        rw [headD_eq_getD, ← hbefore 0 (Nat.succ_pos i), List.getD_cons_zero]
      rw [List.getD_cons_succ, ← getD_tail] at hdiffer ⊢
      rw [compareSegments, hfirst, Std.ReflOrd.compare_self, ← ih hdiffer]
      · rfl
      · intro j hj
        rw [getD_tail, ← hbefore (j + 1) (Nat.succ_lt_succ hj), List.getD_cons_succ]

/-- Two versions differ nowhere, or there is a first place where they do. -/
theorem exists_first_difference (v w : Version) :
    (∀ i, v.segmentAt i = w.segmentAt i) ∨
      ∃ i, v.segmentAt i ≠ w.segmentAt i ∧ ∀ j < i, v.segmentAt j = w.segmentAt j := by
  by_cases h : ∃ i, v.segmentAt i ≠ w.segmentAt i
  · right
    refine ⟨Nat.find h, Nat.find_spec h, ?_⟩
    intro j hj
    exact not_not.1 (Nat.find_min h hj)
  · left
    intro i
    exact not_not.1 fun hi => h ⟨i, hi⟩

/-- A version is greater than another exactly if it exceeds it at the first difference. -/
theorem compare_eq_gt_iff {v w : Version} : compare v w = .gt ↔ Exceeds v w := by
  constructor
  · intro h
    rcases exists_first_difference v w with hsame | ⟨i, hdiffer, hbefore⟩
    · rw [compare, compareSegments_of_getD_eq hsame] at h
      cases h
    · rw [compare, compareSegments_of_first hdiffer hbefore, Std.compare_eq_gt] at h
      exact ⟨i, h, hbefore⟩
  · rintro ⟨i, hless, hbefore⟩
    have hdiffer : v.segmentAt i ≠ w.segmentAt i := by
      intro hsame
      rw [hsame] at hless
      exact absurd hless (UInt64.lt_irrefl _)
    rw [compare, compareSegments_of_first hdiffer hbefore, Std.compare_eq_gt]
    exact hless

end CredentialCeremony.Version
