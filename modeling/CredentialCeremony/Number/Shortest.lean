import CredentialCeremony.Number.Double

set_option autoImplicit false

/-!
# Shortest decimal numbers

`Shortest.decimal` is the decimal number with the fewest digits among those that lie in the
rounding interval of a double, the reals that round to it; of two with equally few digits it is the
one nearer to the double. `Double.text` writes it: positionally if its decimal exponent is from -5
to 15, with a point and an exponent otherwise.
-/

namespace CredentialCeremony.Shortest

/-- A decimal number `d.ddd * 10 ^ exponent`, with at least one digit. -/
structure Decimal where
  digits : List Char
  exponent : Int
  deriving DecidableEq, Repr, Inhabited

/-- The rounding interval of a positive double: its two ends and itself as numerators over one
denominator, and whether the ends belong to it. -/
structure Interval where
  low : Nat
  value : Nat
  high : Nat
  den : Nat
  closed : Bool

/-- The reals that round to a positive double. Below a power of two the neighbours lie closer. -/
def Interval.of (x : Double) : Interval :=
  let (num, den) := x.ratio
  let unit := num / x.mantissa
  let below := if x.mantissa = 0x10000000000000 ∧ -1074 < x.exponent then unit else 2 * unit
  -- four times the numerator, so that half a unit and a quarter of one are whole numbers
  { low := 4 * num - below, value := 4 * num, high := 4 * num + 2 * unit, den := 4 * den
    closed := x.mantissa % 2 == 0 }

/-- Whether a ratio lies in the interval. -/
def Interval.contains (i : Interval) (num den : Nat) : Bool :=
  let fromLow := compare (i.low * den) (num * i.den)
  let toHigh := compare (num * i.den) (i.high * den)
  if i.closed then fromLow.isLE && toHigh.isLE else fromLow.isLT && toHigh.isLT

/-- The exponent of the first decimal digit of a positive ratio. -/
def decimalExponent (num den : Nat) : Int :=
  if den ≤ num then ((Nat.toDigits 10 (num / den)).length : Int) - 1
  else -((Nat.toDigits 10 ((den - 1) / num)).length : Int)

/-- A number of units of `10 ^ place`, as a ratio. -/
def gridPoint (n : Nat) (place : Int) : Nat × Nat :=
  match place with
  | .ofNat e => (n * Nat.pow 10 e, 1)
  | .negSucc e => (n, Nat.pow 10 (e + 1))

/-- The point of the decimal grid `10 ^ place` that lies in the interval and is nearest to its
value, if there is one. Only the two neighbours of the value need be looked at. -/
def onGrid (i : Interval) (place : Int) : Option Nat :=
  let (unitNum, unitDen) := gridPoint 1 place
  let below := i.value * unitDen / (i.den * unitNum)
  let inside (n : Nat) := let (num, den) := gridPoint n place; i.contains num den
  let above := below + 1
  match inside below, inside above with
  | true, true =>
    -- both read back: the nearer one, and the even one if neither is nearer
    let twice := 2 * (i.value * unitDen)
    let middle := (2 * below + 1) * (i.den * unitNum)
    if twice < middle then some below
    else if middle < twice then some above
    else if below % 2 = 0 then some below else some above
  | true, false => some below
  | false, true => some above
  | false, false => none

/-- The first grid with a point in the interval, tried from `count` digits on. -/
def search (i : Interval) (exponent : Int) (more count : Nat) : Decimal :=
  let place := exponent - (count : Int) + 1
  match onGrid i place, more with
  | none, more + 1 => search i exponent more (count + 1)
  | point, _ =>
    let digits := Nat.toDigits 10 (point.getD 0)
    ⟨digits, place + (digits.length : Int) - 1⟩

/-- Removes the zeros at the end of a decimal number with more than one digit. -/
def Decimal.trimmed (d : Decimal) : Decimal :=
  match (d.digits.reverse.dropWhile (· == '0')).reverse with
  | [] => ⟨['0'], d.exponent⟩
  | digits => ⟨digits, d.exponent⟩

/-- The shortest decimal number that rounds to a positive double; 17 digits always suffice. -/
def decimal (x : Double) : Decimal :=
  let (num, den) := x.ratio
  (search (.of x) (decimalExponent num den) 16 1).trimmed

/-- A decimal number as text: positional for exponents from -5 to 15, where a whole number ends in
`.0`, and with a signed exponent otherwise. -/
def Decimal.text (d : Decimal) : String :=
  let count := d.digits.length
  if 0 ≤ d.exponent ∧ d.exponent ≤ 15 then
    let whole := d.exponent.toNat + 1
    if count ≤ whole then
      String.ofList (d.digits ++ List.replicate (whole - count) '0') ++ ".0"
    else String.ofList (d.digits.take whole) ++ "." ++ String.ofList (d.digits.drop whole)
  else if -5 ≤ d.exponent ∧ d.exponent < 0 then
    "0." ++ String.ofList (List.replicate ((-d.exponent).toNat - 1) '0' ++ d.digits)
  else
    let sign := if d.exponent < 0 then "-" else "+"
    let point := if count = 1 then "" else "." ++ String.ofList (d.digits.drop 1)
    String.ofList (d.digits.take 1) ++ point ++ "e" ++ sign ++ toString d.exponent.natAbs

end CredentialCeremony.Shortest

namespace CredentialCeremony

/-- A double in its shortest text. -/
def Double.text (x : Double) : String :=
  let sign := if x.negative then "-" else ""
  if x.isZero then sign ++ "0.0" else sign ++ (Shortest.decimal x).text

end CredentialCeremony
