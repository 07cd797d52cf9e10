import CredentialCeremony.Text.Blank

set_option autoImplicit false

/-!
# Tables over code points

A class of characters is written as ranges of code points, and images of characters are written in
runs: a first code point, and the images of it and of those that follow it, with bars between.

Main statements: `inRanges_eq_true_iff` and `inRanges_append`.
-/

namespace CredentialCeremony.Text

/-- Whether a character is in one of the ranges. -/
def inRanges (ranges : List (Nat × Nat)) (c : Char) : Bool :=
  ranges.any fun range => range.1 ≤ c.toNat && c.toNat ≤ range.2

/-- The ranges ascend and do not touch, so each code point is in at most one of them. -/
def Ascending (ranges : List (Nat × Nat)) : Prop :=
  (ranges.zip ranges.tail).all
    (fun pair => pair.1.1 ≤ pair.1.2 && pair.1.2 + 1 < pair.2.1) = true

instance (ranges : List (Nat × Nat)) : Decidable (Ascending ranges) :=
  inferInstanceAs (Decidable (_ = true))

/-- The characters of runs, each with its image. -/
def imagesOfRuns (runs : List (Nat × String)) : List (Char × List Char) :=
  runs.flatMap fun (first, images) =>
    (cut (· == '|') images.toList).zipIdx.map fun (image, i) =>
      (Char.ofNat (first + i), image)

theorem inRanges_eq_true_iff {ranges : List (Nat × Nat)} {c : Char} :
    inRanges ranges c = true ↔ ∃ range ∈ ranges, range.1 ≤ c.toNat ∧ c.toNat ≤ range.2 := by
  simp [inRanges]

theorem inRanges_append (front back : List (Nat × Nat)) (c : Char) :
    inRanges (front ++ back) c = (inRanges front c || inRanges back c) := by
  simp [inRanges]

end CredentialCeremony.Text
