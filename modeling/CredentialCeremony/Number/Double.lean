set_option autoImplicit false

/-!
# Numbers of double precision

A finite double is a sign, a mantissa below 2 ^ 53 and an exponent of two that is at least -1074.
The mantissa is at least 2 ^ 52 unless the exponent is -1074, so each value has one form (zero has
one for each sign). Arithmetic goes through `Double.nearest`, which rounds a ratio of natural
numbers to the nearest double, a tie to the even mantissa, and answers `none` above the range.

Main statements: `roundHalfEven_of_dvd` (a ratio that is a whole number is not changed) and
`Double.floor_ofNat` for whole numbers below 2 ^ 53.
-/

namespace CredentialCeremony

/-- A finite number of double precision, `± mantissa * 2 ^ exponent`. -/
structure Double where
  negative : Bool
  mantissa : Nat
  exponent : Int
  deriving DecidableEq, Repr, Inhabited

/-- The whole number nearest to a ratio; a tie goes to the even one. -/
def roundHalfEven (num den : Nat) : Nat :=
  let quotient := num / den
  let twice := 2 * (num % den)
  if twice < den then quotient
  else if den < twice then quotient + 1
  else if quotient % 2 = 0 then quotient else quotient + 1

theorem roundHalfEven_of_dvd {den : Nat} (h : 0 < den) (n : Nat) :
    roundHalfEven (n * den) den = n := by
  simp [roundHalfEven, Nat.mul_div_cancel n h, h]

namespace Double

/-- Zero of either sign. -/
def zero (negative : Bool) : Double := ⟨negative, 0, -1074⟩

/-- A ratio divided by a power of two, as a ratio again. -/
def scaled (num den : Nat) (exponent : Int) : Nat × Nat :=
  match exponent with
  | .ofNat e => (num, den <<< e)
  | .negSucc e => (num <<< (e + 1), den)

/-- The exponent at which a ratio has a mantissa of 53 bits, or -1074 if that is greater. -/
def exponentOf (num den : Nat) : Int :=
  -- at the guess the ratio lies between 2 ^ 51 and 2 ^ 53
  let guess : Int := (num.log2 : Int) - den.log2 - 52
  let (n, d) := scaled num den guess
  max (-1074) (if n / d < 0x10000000000000 then guess - 1 else guess)

/-- The mantissa and exponent of the double nearest to a ratio, unless that lies above the range. -/
def nearest (num den : Nat) : Option (Nat × Int) :=
  if num = 0 then some (0, -1074)
  else
    let exponent := exponentOf num den
    let (n, d) := scaled num den exponent
    let mantissa := roundHalfEven n d
    -- rounding up may reach the next power of two
    let (mantissa, exponent) :=
      if mantissa = 0x20000000000000 then (0x10000000000000, exponent + 1)
      else (mantissa, exponent)
    if 971 < exponent then none else some (mantissa, exponent)

/-- The double nearest to a ratio with a sign, unless that lies above the range. -/
def ofRatio? (negative : Bool) (num den : Nat) : Option Double :=
  (nearest num den).map fun (mantissa, exponent) => ⟨negative, mantissa, exponent⟩

/-- The absolute value as a ratio of natural numbers. -/
def ratio (x : Double) : Nat × Nat :=
  match x.exponent with
  | .ofNat e => (x.mantissa <<< e, 1)
  | .negSucc e => (x.mantissa, 1 <<< (e + 1))

/-- The number with the other sign. -/
def negate (x : Double) : Double := { x with negative := !x.negative }

/-- Whether the number is a zero of either sign. -/
def isZero (x : Double) : Bool := x.mantissa == 0

/-- The product, rounded, unless it lies above the range. -/
def mul? (x y : Double) : Option Double :=
  let (xn, xd) := x.ratio
  let (yn, yd) := y.ratio
  ofRatio? (x.negative != y.negative) (xn * yn) (xd * yd)

/-- The quotient by a number other than zero, rounded, unless it lies above the range. -/
def div? (x y : Double) : Option Double :=
  let (xn, xd) := x.ratio
  let (yn, yd) := y.ratio
  ofRatio? (x.negative != y.negative) (xn * yd) (xd * yn)

/-- The whole part of the absolute value. -/
def floor (x : Double) : Nat := x.ratio.1 / x.ratio.2

/-- A positive whole number below 2 ^ 53 is a double, its mantissa shifted to 53 bits. -/
theorem nearest_ofNat {n : Nat} (hpos : 0 < n) (hlt : n < 0x20000000000000) :
    nearest n 1 = some (n <<< (52 - n.log2), -((52 - n.log2 : Nat) : Int)) := by
  have hne : n ≠ 0 := by omega
  have hlog : n.log2 < 53 := (Nat.log2_lt hne).2 hlt
  obtain ⟨shift, hshift⟩ : ∃ shift, shift + n.log2 = 52 := ⟨52 - n.log2, by omega⟩
  have hsub : 52 - n.log2 = shift := by omega
  have hlow : 0x10000000000000 ≤ n <<< shift := by
    calc 0x10000000000000 = 1 <<< (n.log2 + shift) := by rw [Nat.add_comm, hshift]; rfl
      _ = (1 <<< n.log2) <<< shift := Nat.shiftLeft_add 1 n.log2 shift
      _ ≤ n <<< shift := by
        rw [Nat.shiftLeft_eq _ shift, Nat.shiftLeft_eq _ shift, Nat.one_shiftLeft]
        exact Nat.mul_le_mul_right _ (Nat.log2_self_le hne)
  have hhigh : n <<< shift < 0x20000000000000 := by
    calc n <<< shift < (1 <<< (n.log2 + 1)) <<< shift := by
          rw [Nat.shiftLeft_eq _ shift, Nat.shiftLeft_eq _ shift, Nat.one_shiftLeft]
          exact Nat.mul_lt_mul_of_pos_right Nat.lt_log2_self (Nat.two_pow_pos shift)
      _ = 1 <<< (n.log2 + 1 + shift) := (Nat.shiftLeft_add 1 (n.log2 + 1) shift).symm
      _ = 0x20000000000000 := by rw [show n.log2 + 1 + shift = 53 by omega]; rfl
  have hguess : (n.log2 : Int) - (Nat.log2 1 : Nat) - 52 = -(shift : Int) := by
    have : Nat.log2 1 = 0 := by decide
    omega
  have hscaled : scaled n 1 (-(shift : Int)) = (n <<< shift, 1) := by
    cases shift with
    | zero => rfl
    | succ k => rfl
  have hexp : exponentOf n 1 = -(shift : Int) := by
    have : ¬ n <<< shift / 1 < 0x10000000000000 := by rw [Nat.div_one]; omega
    simp only [exponentOf, hguess, hscaled, this, if_false]
    omega
  have hround : roundHalfEven (n <<< shift) 1 = n <<< shift := by
    simpa using roundHalfEven_of_dvd Nat.one_pos (n <<< shift)
  have hne53 : ¬ n <<< shift = 0x20000000000000 := by omega
  have hrange : ¬ (971 : Int) < -(shift : Int) := by omega
  simp only [nearest, hne, if_false, hexp, hscaled, hround, hne53, hrange, hsub]

/-- A whole number below 2 ^ 53 is its own whole part. -/
theorem floor_ofNat {negative : Bool} {n : Nat} {x : Double} (hlt : n < 0x20000000000000)
    (h : ofRatio? negative n 1 = some x) : x.floor = n := by
  by_cases hn : n = 0
  · subst hn
    obtain rfl : zero negative = x := by simpa [ofRatio?, nearest, zero] using h
    exact Nat.zero_div _
  · rw [ofRatio?, nearest_ofNat (by omega) hlt] at h
    obtain rfl := Option.some.inj h
    generalize 52 - n.log2 = shift
    cases shift with
    | zero => simp [floor, ratio]
    | succ k =>
      show n <<< (k + 1) / 1 <<< (k + 1) = n
      rw [Nat.shiftLeft_eq n, Nat.one_shiftLeft]
      exact Nat.mul_div_cancel n (Nat.two_pow_pos (k + 1))

end Double
end CredentialCeremony
