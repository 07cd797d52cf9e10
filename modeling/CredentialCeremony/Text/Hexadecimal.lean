set_option autoImplicit false

/-!
# Hexadecimal digits

A digit is read in either case and written in the one that the format at hand asks for.

Main statement: `hexValue?_upperHex` (a digit that is written reads back).
-/

namespace CredentialCeremony.Text

/-- The value of a hexadecimal digit of either case. -/
def hexValue? (c : Char) : Option Nat :=
  if c.isDigit then some (c.toNat - 48)
  else if 'a' ≤ c ∧ c ≤ 'f' then some (c.toNat - 87)
  else if 'A' ≤ c ∧ c ≤ 'F' then some (c.toNat - 55)
  else none

/-- The digit of a value below 16 in lower case. -/
def lowerHex (n : Nat) : Char := if n < 10 then Char.ofNat (48 + n) else Char.ofNat (87 + n)

/-- The digit of a value below 16 in upper case. -/
def upperHex (n : Nat) : Char := if n < 10 then Char.ofNat (48 + n) else Char.ofNat (55 + n)

theorem hexValue?_upperHex : ∀ n < 16, hexValue? (upperHex n) = some n := by decide

end CredentialCeremony.Text
