import CredentialCeremony.Text.Blank

set_option autoImplicit false

/-!
# Labels beyond ASCII in ASCII

A label is written as its ASCII characters, a hyphen, and the other characters in ascending order:
for each one, how many steps lie between it and the one before, where a step goes to the next place
in the label and then to the next code point. A number of steps is written in a base that moves with
the numbers written so far.
-/

namespace CredentialCeremony.Domain.Punycode

/-- A digit below 36. -/
def digit (n : Nat) : Char := if n < 26 then Char.ofNat (97 + n) else Char.ofNat (22 + n)

/-- The value of a digit. -/
def digitValue? (c : Char) : Option Nat :=
  if 'a' ≤ c ∧ c ≤ 'z' then some (c.toNat - 97)
  else if c.isDigit then some (c.toNat - 22)
  else none

/-- The least digit that is not the last of a number, at the place that `k` stands for. -/
def threshold (k bias : Nat) : Nat :=
  if k ≤ bias then 1 else if bias + 26 ≤ k then 26 else k - bias

/-- Adapts the bias to a number of steps, when `count` characters are there. -/
def adaptBias (steps count : Nat) (first : Bool) : Nat :=
  let steps := if first then steps / 700 else steps / 2
  go 6 (steps + steps / count) 0
where
  /-- Divides the steps by 35 while they are many; six rounds do for any label. -/
  go : Nat → Nat → Nat → Nat
    | 0, steps, k => k + 36 * steps / (steps + 38)
    | rounds + 1, steps, k =>
      if 455 < steps then go rounds (steps / 35) (k + 36) else k + 36 * steps / (steps + 38)

theorem threshold_bounds (k bias : Nat) : 1 ≤ threshold k bias ∧ threshold k bias ≤ 26 := by
  rw [threshold]
  split
  · exact ⟨Nat.le_refl 1, by decide⟩
  · split <;> omega

/-- What is left of a number after a digit is smaller than the number. -/
theorem remaining_lt {k bias q : Nat} (h : ¬ q < threshold k bias) :
    (q - threshold k bias) / (36 - threshold k bias) < q := by
  have bounds := threshold_bounds k bias
  calc (q - threshold k bias) / (36 - threshold k bias) ≤ q - threshold k bias :=
        Nat.div_le_self _ _
    _ < q := by omega

/-- A number of steps as digits, least significant first. -/
def number (bias k q : Nat) : List Char :=
  let t := threshold k bias
  if q < t then [digit q]
  else digit (t + (q - t) % (36 - t)) :: number bias (k + 36) ((q - t) / (36 - t))
termination_by q
decreasing_by exact remaining_lt (by assumption)

/-- Reads a number of steps behind those taken so far; its next digit has a weight. -/
def takeNumber? (bias : Nat) : (k weight steps : Nat) → List Char → Option (Nat × List Char)
  | _, _, _, [] => none
  | k, weight, steps, c :: rest =>
    match digitValue? c with
    | none => none
    | some d =>
      let t := threshold k bias
      if d < t then some (steps + d * weight, rest)
      else takeNumber? bias (k + 36) (weight * (36 - t)) (steps + d * weight) rest

/-- Reading a number takes at least one digit. -/
theorem length_lt_of_takeNumber? {bias k weight steps : Nat} {text : List Char}
    {found : Nat × List Char} (h : takeNumber? bias k weight steps text = some found) :
    found.2.length < text.length := by
  induction text generalizing k weight steps with
  | nil => simp [takeNumber?] at h
  | cons c rest ih =>
    rw [takeNumber?] at h
    split at h
    · exact absurd h (by simp)
    · dsimp only at h
      split at h
      · obtain rfl := Option.some.inj h
        exact Nat.lt_succ_self _
      · exact Nat.lt_succ_of_lt (ih h)

/-- The state while the characters beyond ASCII are written. -/
structure Writing where
  steps : Nat
  bias : Nat
  written : Nat
  output : List Char

/-- Writes the occurrences of one code point, and counts the smaller ones as steps. -/
def Writing.pass (basic n : Nat) (s : Writing) (c : Char) : Writing :=
  if c.toNat < n then { s with steps := s.steps + 1 }
  else if c.toNat = n then
    { steps := 0
      bias := adaptBias s.steps (s.written + 1) (s.written == basic)
      written := s.written + 1
      output := s.output ++ number s.bias 36 s.steps }
  else s

/-- A label in ASCII. -/
def encode (label : List Char) : List Char :=
  let basic := label.filter fun c => c.toNat < 0x80
  let points := ((label.filter fun c => 0x80 ≤ c.toNat).map Char.toNat).mergeSort.eraseReps
  let start : Writing := ⟨0, 72, basic.length, if basic.isEmpty then [] else basic ++ ['-']⟩
  let (final, _) := points.foldl
    (fun (s, previous) n =>
      -- from one code point to the next, every place of the label is one step
      let s := { s with steps := s.steps + (n - previous) * (s.written + 1) }
      let s := label.foldl (Writing.pass basic.length n) s
      ({ s with steps := s.steps + 1 }, n + 1))
    (start, 0x80)
  final.output

/-- The state while the characters beyond ASCII are read. -/
structure Reading where
  point : Nat
  steps : Nat
  bias : Nat
  output : List Char

/-- Goes to where the steps lead, and puts a character there; its code point may not exist. -/
def Reading.arrive? (s : Reading) (steps : Nat) : Option Reading :=
  let count := s.output.length + 1
  let point := s.point + steps / count
  let place := steps % count
  if h : point.isValidChar then
    some
      { point
        steps := place + 1
        bias := adaptBias (steps - s.steps) count (s.steps == 0)
        output := s.output.take place ++ Char.ofNatAux point h :: s.output.drop place }
  else none

/-- Reads numbers of steps to the end of a text. -/
def Reading.run? (s : Reading) (text : List Char) : Option (List Char) :=
  if text.isEmpty then some s.output
  else
    match _taken : takeNumber? s.bias 36 1 s.steps text with
    | none => none
    | some (steps, rest) =>
      match s.arrive? steps with
      | none => none
      | some next => next.run? rest
termination_by text.length
decreasing_by exact length_lt_of_takeNumber? _taken

/-- The label that a text in ASCII stands for. A hyphen in front ends no ASCII characters, and is no
digit either. -/
def decode? (text : List Char) : Option (List Char) :=
  let pieces := Text.cut (· == '-') text
  let basic := ['-'].intercalate pieces.dropLast
  let numbers := if basic.isEmpty then text else pieces.getLastD []
  Reading.run? ⟨0x80, 0, 72, basic⟩ numbers

end CredentialCeremony.Domain.Punycode
