import CredentialCeremony.Number.Double

set_option autoImplicit false

/-!
# Numbers from decimal digits

`Double.ofDecimal?` is the double nearest to a decimal number. `Numeral.double?` is the number that
a JSON numeral stands for. The two differ: a JSON numeral keeps a significand of 64 bits, to which
each digit is appended while it fits (`Numeral.absorb`), and the power of ten is then applied as a
double, so the last place of the result may be off by the roundings of the steps.
-/

namespace CredentialCeremony

/-- The number that decimal digits spell. -/
def ofDigits (digits : List Nat) : Nat := digits.foldl (fun n d => 10 * n + d) 0

namespace Double

/-- The double nearest to `digits * 10 ^ exponent`, unless that lies above the range. Numbers that
are far outside the range of a double are decided by the number of their digits. -/
def ofDecimal? (negative : Bool) (digits : Nat) (exponent : Int) : Option Double :=
  -- the number is at least `10 ^ (magnitude - 1)` and less than `10 ^ magnitude`
  let magnitude : Int := (Nat.toDigits 10 digits).length + exponent
  if digits = 0 ∨ magnitude < -330 then some (zero negative)
  else if 310 < magnitude then none
  else match exponent with
    | .ofNat e => ofRatio? negative (digits * Nat.pow 10 e) 1
    | .negSucc e => ofRatio? negative digits (Nat.pow 10 (e + 1))

/-- A power of ten up to 10 ^ 308, rounded. -/
def powerOfTen (n : Nat) : Double := (ofRatio? false (Nat.pow 10 n) 1).getD (zero false)

end Double

namespace Numeral

/-- Appends digits to a significand as long as it stays below 2 ^ 64; the answer holds the new
significand and how many digits were left out. -/
def absorb (significand : Nat) : List Nat → Nat × Nat
  | [] => (significand, 0)
  | d :: ds =>
    if 10 * significand + d < 0x10000000000000000 then absorb (10 * significand + d) ds
    else (significand, ds.length + 1)

/-- Applies a power of ten to a double in steps of at most 308 places. A significand of 64 bits is
zero after two divisions by 10 ^ 308, so `rounds` need not be more than three. -/
def scale? : (rounds : Nat) → Double → (exponent : Int) → Option Double
  | rounds, x, exponent =>
    if 0 ≤ exponent then
      if exponent ≤ 308 then x.mul? (.powerOfTen exponent.toNat)
      else if x.isZero then some x else none
    else if -308 ≤ exponent then x.div? (.powerOfTen (-exponent).toNat)
    else if x.isZero then some x
    else match rounds with
      | 0 => some (.zero x.negative)
      | rounds + 1 => (x.div? (.powerOfTen 308)).bind fun y => scale? rounds y (exponent + 308)

/-- The double that a significand and a power of ten stand for, unless it lies above the range. -/
def double? (negative : Bool) (significand : Nat) (exponent : Int) : Option Double := do
  let x ← Double.ofRatio? false significand 1
  let x ← scale? 3 x exponent
  some (if negative then x.negate else x)

theorem absorb_nil (significand : Nat) : absorb significand [] = (significand, 0) := rfl

/-- Digits that follow make a number no less. -/
theorem le_foldl_digits (digits : List Nat) (n : Nat) :
    n ≤ digits.foldl (fun n d => 10 * n + d) n := by
  induction digits generalizing n with
  | nil => exact Nat.le_refl n
  | cons d digits ih => exact Nat.le_trans (by omega) (ih (10 * n + d))

/-- No digit is left out of a significand that fits. -/
theorem absorb_eq_of_lt {significand : Nat} {digits : List Nat}
    (h : digits.foldl (fun n d => 10 * n + d) significand < 0x10000000000000000) :
    absorb significand digits = (digits.foldl (fun n d => 10 * n + d) significand, 0) := by
  induction digits generalizing significand with
  | nil => rfl
  | cons d ds ih =>
    have fits : 10 * significand + d < 0x10000000000000000 := Nat.lt_of_le_of_lt (le_foldl_digits ds _) h
    simp only [absorb, fits, if_true, List.foldl_cons]
    exact ih h

end Numeral
end CredentialCeremony
