import CredentialCeremony.Number.Numeral
import CredentialCeremony.Json.Basic
import CredentialCeremony.Reading.Error
import CredentialCeremony.Text.Blank

set_option autoImplicit false

/-!
# Timeouts as servers write them

A timeout is a number of milliseconds within 32 bits. Servers send it as a number or as a text that
spells one, with or without a fraction; the fraction is cut off. A value that is no such number is
not an error: the timeout is absent and a warning says why.

Main statement: `Timeout.ofNumber?_integer` (a whole number is itself from 0 to 2 ^ 32 - 1).
-/

namespace CredentialCeremony

/-- What a text that spells a number stands for: a double, or none of the finite ones. -/
inductive Spelled where
  | finite (x : Double)
  | notFinite
  deriving DecidableEq, Repr

namespace Spelled

/-- The sign at the front of a text, and the rest. -/
def sign : List Char → Bool × List Char
  | '-' :: rest => (true, rest)
  | '+' :: rest => (false, rest)
  | text => (false, text)

/-- The digits at the front of a text, and the rest. -/
def digits (text : List Char) : List Nat × List Char :=
  ((text.takeWhile Char.isDigit).map (fun c => c.toNat - 48), text.dropWhile Char.isDigit)

/-- An exponent of ten. One past 65535 takes no further digits. -/
def exponent? (text : List Char) : Option Int :=
  let (down, text) := sign text
  let (ds, rest) := digits text
  if ds.isEmpty ∨ ¬ rest.isEmpty then none
  else
    let magnitude : Nat := ds.foldl (fun n d => if n < 65536 then 10 * n + d else n) 0
    some (if down then -(magnitude : Int) else magnitude)

/-- The words for numbers that are not finite, in any mix of cases. -/
def isWord (text : List Char) : Bool :=
  ["inf", "infinity", "nan"].any fun word => text.map Char.toLower == word.toList

/-- The number that a text spells. -/
def ofText? (text : List Char) : Option Spelled := do
  let (negative, text) := sign text
  if isWord text then return notFinite
  -- digits may be missing before the point or behind it, but not on both sides
  let (whole, rest) := digits text
  let (fraction, rest) :=
    match rest with
    | '.' :: rest => digits rest
    | rest => ([], rest)
  if whole.isEmpty ∧ fraction.isEmpty then none
  let exponent ←
    match rest with
    | [] => some 0
    | c :: rest => if c = 'e' ∨ c = 'E' then exponent? rest else none
  match Double.ofDecimal? negative (ofDigits (whole ++ fraction)) (exponent - fraction.length) with
  | some x => return finite x
  | none => return notFinite

end Spelled

namespace Timeout

/-- The whole milliseconds of a double, unless it has a minus sign or is too great. -/
def ofDouble? (x : Double) : Option UInt32 :=
  if x.negative ∨ 0x100000000 ≤ x.floor then none else some (UInt32.ofNat x.floor)

/-- The milliseconds of a number, unless it has a minus sign or is too great. -/
def ofNumber? : Number → Option UInt32
  | .integer n => if 0 ≤ n ∧ n < 0x100000000 then some (UInt32.ofNat n.toNat) else none
  | .double x => ofDouble? x

/-- The milliseconds that a text spells, whatever blanks stand around it. -/
def ofText (s : String) : Except TimeoutWarning UInt32 :=
  match Spelled.ofText? (Text.trim s.toList) with
  | none => .error .notANumber
  | some .notFinite => .error .notMilliseconds
  | some (.finite x) =>
    match ofDouble? x with
    | some millis => .ok millis
    | none => .error .notMilliseconds

/-- The milliseconds of a value, if it is given, or a warning. -/
def ofJson : Json → Except TimeoutWarning (Option UInt32)
  | .null => .ok none
  | .number n =>
    match ofNumber? n with
    | some millis => .ok (some millis)
    | none => .error .notMilliseconds
  | .string s => (ofText s).map some
  | _ => .error .notAScalar

theorem ofNumber?_integer (n : UInt32) : ofNumber? (.integer n.toNat) = some n := by
  have h := n.toNat_lt
  have h₁ : (0 : Int) ≤ n.toNat ∧ (n.toNat : Int) < 0x100000000 := by omega
  simp only [ofNumber?, h₁, and_self, if_true, Int.toNat_natCast, UInt32.ofNat_toNat]

end Timeout
end CredentialCeremony
