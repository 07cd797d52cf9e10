import CredentialCeremony.Number.Numeral
import Mathlib.Algebra.Group.Nat.Defs

set_option autoImplicit false

/-!
# Rounding keeps what is great

A ratio that is at least a power of two is rounded to a double that is at least this power, so no
rounding lets a number fall below such a limit (`Double.le_floor_of_ofRatio?`), in decimal digits as
well as in a numeral (`Double.le_floor_of_ofDecimal?`, `Numeral.le_floor_of_double?`). A numeral of
more digits than its significand holds stays far above every number of 32 bits
(`Numeral.sixty_bits_of_absorb`), and it keeps its sign (`Numeral.negative_of_double?`).
-/

namespace CredentialCeremony

theorem div_le_roundHalfEven (num den : Nat) : num / den ≤ roundHalfEven num den := by
  unfold roundHalfEven
  dsimp only
  split
  · exact Nat.le_refl _
  split
  · exact Nat.le_succ _
  split
  · exact Nat.le_refl _
  · exact Nat.le_succ _

namespace Double

/-- An even mantissa may be halved for the next exponent. -/
theorem floor_succ (negative : Bool) (mantissa : Nat) (exponent : Int) :
    floor ⟨negative, mantissa, exponent + 1⟩ = floor ⟨negative, mantissa * 2, exponent⟩ := by
  cases exponent with
  | ofNat e =>
    show mantissa <<< (e + 1) / 1 = (mantissa * 2) <<< e / 1
    rw [Nat.shiftLeft_eq, Nat.shiftLeft_eq, Nat.pow_succ, Nat.mul_assoc, Nat.mul_comm (2 ^ e)]
  | negSucc e =>
    cases e with
    | zero =>
      show mantissa <<< 0 / 1 = mantissa * 2 / 1 <<< 1
      rw [Nat.shiftLeft_zero, Nat.div_one, Nat.one_shiftLeft, Nat.pow_one,
        Nat.mul_div_cancel _ (by decide)]
    | succ e =>
      show mantissa / 1 <<< (e + 1) = mantissa * 2 / 1 <<< (e + 1 + 1)
      rw [Nat.one_shiftLeft, Nat.one_shiftLeft, Nat.pow_succ 2 (e + 1)]
      exact (Nat.mul_div_mul_right mantissa (2 ^ (e + 1)) Nat.two_pos).symm

section Nearest

variable {num den k : Nat}

/-- Up to an exponent below the one of the ratio, the mantissa is not zero. -/
theorem scaled_le (hnum : num ≠ 0) {exponent : Int}
    (h : exponent ≤ (num.log2 : Int) - den.log2 - 1) :
    (scaled num den exponent).2 ≤ (scaled num den exponent).1 := by
  have hlow := Nat.log2_self_le hnum
  have hhigh : den < 2 ^ (den.log2 + 1) := Nat.lt_log2_self
  cases exponent with
  | ofNat e =>
    show den <<< e ≤ num
    rw [Nat.shiftLeft_eq]
    have hexponent : den.log2 + 1 + e ≤ num.log2 := by
      have h : (e : Int) ≤ (num.log2 : Int) - den.log2 - 1 := h
      omega
    calc den * 2 ^ e ≤ 2 ^ (den.log2 + 1) * 2 ^ e := Nat.mul_le_mul_right _ (Nat.le_of_lt hhigh)
      _ = 2 ^ (den.log2 + 1 + e) := (Nat.pow_add 2 _ e).symm
      _ ≤ 2 ^ num.log2 := Nat.pow_le_pow_right (by decide) hexponent
      _ ≤ num := hlow
  | negSucc e =>
    show den ≤ num <<< (e + 1)
    rw [Nat.shiftLeft_eq]
    have hexponent : den.log2 + 1 ≤ num.log2 + (e + 1) := by omega
    calc den ≤ 2 ^ (den.log2 + 1) := Nat.le_of_lt hhigh
      _ ≤ 2 ^ (num.log2 + (e + 1)) := Nat.pow_le_pow_right (by decide) hexponent
      _ = 2 ^ num.log2 * 2 ^ (e + 1) := Nat.pow_add 2 _ _
      _ ≤ num * 2 ^ (e + 1) := Nat.mul_le_mul_right _ hlow

/-- The exponent of a ratio that is at least one lies below its power of two. -/
theorem exponentOf_le (hden : 0 < den) (h : den ≤ num) :
    exponentOf num den ≤ (num.log2 : Int) - den.log2 - 1 := by
  have hlog : den.log2 ≤ num.log2 := by
    rw [Nat.le_log2 (by omega)]
    exact Nat.le_trans (Nat.log2_self_le (by omega)) h
  unfold exponentOf
  dsimp only
  split <;> omega

/-- A mantissa that is no less than the scaled ratio makes a number that is no less than a power of
two that the ratio reaches. -/
theorem le_floor_of_scaled (negative : Bool) (hden : 0 < den) (h : 2 ^ k * den ≤ num)
    {exponent : Int} {mantissa : Nat} (hpos : 0 < mantissa)
    (hmantissa : (scaled num den exponent).1 / (scaled num den exponent).2 ≤ mantissa) :
    2 ^ k ≤ floor ⟨negative, mantissa, exponent⟩ := by
  cases exponent with
  | ofNat e =>
    have hmantissa : num / (den <<< e) ≤ mantissa := hmantissa
    show 2 ^ k ≤ mantissa <<< e / 1
    rw [Nat.shiftLeft_eq] at hmantissa ⊢
    rw [Nat.div_one]
    rcases Nat.le_total k e with hke | hek
    · calc 2 ^ k ≤ 1 * 2 ^ e := by
            rw [Nat.one_mul]
            exact Nat.pow_le_pow_right (by decide) hke
        _ ≤ mantissa * 2 ^ e := Nat.mul_le_mul_right _ hpos
    · obtain ⟨j, rfl⟩ := Nat.exists_eq_add_of_le hek
      have hratio : 2 ^ j ≤ num / (den * 2 ^ e) := by
        rw [Nat.le_div_iff_mul_le (Nat.mul_pos hden (Nat.two_pow_pos e))]
        calc 2 ^ j * (den * 2 ^ e) = 2 ^ (e + j) * den := by rw [Nat.pow_add]; grind
          _ ≤ num := h
      calc 2 ^ (e + j) = 2 ^ j * 2 ^ e := by rw [Nat.pow_add, Nat.mul_comm]
        _ ≤ mantissa * 2 ^ e := Nat.mul_le_mul_right _ (Nat.le_trans hratio hmantissa)
  | negSucc e =>
    have hmantissa : num <<< (e + 1) / den ≤ mantissa := hmantissa
    show 2 ^ k ≤ mantissa / 1 <<< (e + 1)
    rw [Nat.shiftLeft_eq] at hmantissa
    rw [Nat.one_shiftLeft, Nat.le_div_iff_mul_le (Nat.two_pow_pos (e + 1))]
    refine Nat.le_trans ?_ hmantissa
    rw [Nat.le_div_iff_mul_le hden]
    calc 2 ^ k * 2 ^ (e + 1) * den = 2 ^ k * den * 2 ^ (e + 1) := by grind
      _ ≤ num * 2 ^ (e + 1) := Nat.mul_le_mul_right _ h

/-- A ratio that reaches a power of two is rounded to a double that reaches it. -/
theorem le_floor_of_ofRatio? {negative : Bool} {x : Double} (hden : 0 < den)
    (h : 2 ^ k * den ≤ num) (hx : ofRatio? negative num den = some x) : 2 ^ k ≤ x.floor := by
  have hle : den ≤ num := Nat.le_trans (Nat.le_mul_of_pos_left den (Nat.two_pow_pos k)) h
  have hnum : num ≠ 0 := by omega
  have hscaled := scaled_le hnum (exponentOf_le hden hle)
  have hround := div_le_roundHalfEven (scaled num den (exponentOf num den)).1
    (scaled num den (exponentOf num den)).2
  have hsome : 0 < (scaled num den (exponentOf num den)).2 := by
    generalize exponentOf num den = e
    cases e with
    | ofNat e =>
      show 0 < den <<< e
      rw [Nat.shiftLeft_eq]
      exact Nat.mul_pos hden (Nat.two_pow_pos e)
    | negSucc e => exact hden
  have hpos := Nat.lt_of_lt_of_le (Nat.div_pos hscaled hsome) hround
  have hfloor := le_floor_of_scaled negative hden h hpos hround
  rw [ofRatio?, Option.map_eq_some_iff] at hx
  obtain ⟨⟨mantissa, exponent⟩, hnear, rfl⟩ := hx
  simp only [nearest, hnum, if_false] at hnear
  generalize roundHalfEven _ _ = rounded at hfloor hnear
  by_cases hcarry : rounded = 0x20000000000000
  -- a mantissa that is rounded up to the next power of two is halved
  · simp only [hcarry, if_true] at hnear
    split at hnear
    · cases hnear
    · cases hnear
      have heven : rounded = 0x10000000000000 * 2 := hcarry
      rw [heven, ← floor_succ] at hfloor
      exact hfloor
  · simp only [hcarry, if_false] at hnear
    split at hnear
    · cases hnear
    · cases hnear
      exact hfloor

end Nearest

theorem negative_of_ofRatio? {negative : Bool} {num den : Nat} {x : Double}
    (h : ofRatio? negative num den = some x) : x.negative = negative := by
  obtain ⟨_, -, rfl⟩ := Option.map_eq_some_iff.1 h
  rfl

theorem ratio_pos (x : Double) : 0 < x.ratio.2 := by
  obtain ⟨negative, mantissa, exponent⟩ := x
  cases exponent with
  | ofNat e => exact Nat.one_pos
  | negSucc e =>
    show 0 < 1 <<< (e + 1)
    rw [Nat.one_shiftLeft]
    exact Nat.two_pow_pos (e + 1)

/-- A product with a factor of at least one reaches what the other factor reaches. -/
theorem le_floor_of_mul? {k : Nat} {x y z : Double} (hx : 2 ^ k ≤ x.floor) (hy : 1 ≤ y.floor)
    (h : x.mul? y = some z) : 2 ^ k ≤ z.floor := by
  rw [floor, Nat.le_div_iff_mul_le x.ratio_pos] at hx
  rw [floor, Nat.le_div_iff_mul_le y.ratio_pos, Nat.one_mul] at hy
  refine le_floor_of_ofRatio? (Nat.mul_pos x.ratio_pos y.ratio_pos) ?_ h
  rw [← Nat.mul_assoc]
  exact Nat.mul_le_mul hx hy

/-- The powers of ten that numerals are scaled with are at least one. -/
theorem one_le_floor_powerOfTen : ∀ e < 309, 1 ≤ (powerOfTen e).floor := by
  decide +kernel

theorem negative_powerOfTen (e : Nat) : (powerOfTen e).negative = false := by
  rw [powerOfTen]
  cases h : ofRatio? false (Nat.pow 10 e) 1 with
  | none => rfl
  | some x => exact negative_of_ofRatio? h

theorem isZero_eq_false_of_floor {x : Double} (h : 0 < x.floor) : x.isZero = false := by
  rw [isZero, beq_eq_false_iff_ne]
  intro hzero
  obtain ⟨negative, mantissa, exponent⟩ := x
  subst hzero
  cases exponent with
  | ofNat e => simp [floor, ratio] at h
  | negSucc e => simp [floor, ratio] at h

/-! ## Digits without an exponent -/

section Decimals

variable {negative : Bool} {n : Nat} {x : Double}

theorem ofDecimal?_zero (negative : Bool) : ofDecimal? negative 0 0 = some (zero negative) := by
  simp [ofDecimal?]

/-- A whole number other than zero is rounded, unless it has too many digits for that. -/
theorem ofDecimal?_of_pos (negative : Bool) (hn : 0 < n) : ofDecimal? negative n 0 =
    if 310 < (Nat.toDigits 10 n).length then none else ofRatio? negative n 1 := by
  have hsmall : ¬ (n = 0 ∨ (((Nat.toDigits 10 n).length : Nat) : Int) + 0 < -330) := by omega
  have hlong : (310 : Int) < ((Nat.toDigits 10 n).length : Nat) + 0 ↔
      310 < (Nat.toDigits 10 n).length := by omega
  simp only [ofDecimal?, hsmall, if_false, hlong]
  split
  · rfl
  · show ofRatio? negative (n * 1) 1 = ofRatio? negative n 1
    rw [Nat.mul_one]

/-- Digits keep their sign, that of zero included. -/
theorem negative_of_ofDecimal? (h : ofDecimal? negative n 0 = some x) : x.negative = negative := by
  rcases Nat.eq_zero_or_pos n with rfl | hpos
  · cases (ofDecimal?_zero negative).symm.trans h
    rfl
  · rw [ofDecimal?_of_pos negative hpos] at h
    split at h
    · cases h
    · exact negative_of_ofRatio? h

/-- A whole number below 2 ^ 53 is not rounded. -/
theorem ofDecimal?_of_lt (negative : Bool) (hn : n < 2 ^ 53) :
    ∃ x, ofDecimal? negative n 0 = some x ∧ x.floor = n := by
  rcases Nat.eq_zero_or_pos n with rfl | hpos
  · exact ⟨_, ofDecimal?_zero negative, Nat.zero_div _⟩
  · have hlength : (Nat.toDigits 10 n).length ≤ 16 :=
      (Nat.length_toDigits_le_iff (by decide) (by decide)).2 (Nat.lt_of_lt_of_le hn (by decide))
    have hratio : ofRatio? negative n 1 =
        some ⟨negative, n <<< (52 - n.log2), -((52 - n.log2 : Nat) : Int)⟩ := by
      rw [ofRatio?, nearest_ofNat hpos hn]
      rfl
    refine ⟨_, ?_, floor_ofNat hn hratio⟩
    rw [ofDecimal?_of_pos negative hpos, if_neg (by omega), hratio]

/-- A whole number that reaches a power of two is rounded to one that reaches it. -/
theorem le_floor_of_ofDecimal? {k : Nat} (hn : 2 ^ k ≤ n) (h : ofDecimal? negative n 0 = some x) :
    2 ^ k ≤ x.floor := by
  rw [ofDecimal?_of_pos negative (Nat.lt_of_lt_of_le (Nat.two_pow_pos k) hn)] at h
  split at h
  · cases h
  · exact le_floor_of_ofRatio? Nat.one_pos (by rwa [Nat.mul_one]) h

end Decimals

end Double

namespace Numeral

open Double

theorem scale?_natCast (rounds : Nat) (x : Double) (e : Nat) : scale? rounds x (e : Int) =
    if e ≤ 308 then x.mul? (powerOfTen e) else if x.isZero then some x else none := by
  have hpos : (0 : Int) ≤ e := Int.natCast_nonneg e
  have hrange : (e : Int) ≤ 308 ↔ e ≤ 308 := by omega
  unfold scale?
  simp only [hpos, if_true, hrange, Int.toNat_natCast]

/-- A power of ten of at least one does not change the sign. -/
theorem negative_of_scale? {rounds e : Nat} {x y : Double} (h : scale? rounds x (e : Int) = some y) :
    y.negative = x.negative := by
  rw [scale?_natCast] at h
  split at h
  · have hsign := negative_of_ofRatio? h
    rwa [negative_powerOfTen, Bool.bne_false] at hsign
  · split at h
    · cases h
      rfl
    · cases h

/-- A power of ten of at least one lets no number fall below a limit that it reaches. -/
theorem le_floor_of_scale? {k rounds e : Nat} {x y : Double} (hx : 2 ^ k ≤ x.floor)
    (h : scale? rounds x (e : Int) = some y) : 2 ^ k ≤ y.floor := by
  rw [scale?_natCast] at h
  split at h
  · exact le_floor_of_mul? hx (one_le_floor_powerOfTen e (by omega)) h
  · rw [isZero_eq_false_of_floor (Nat.lt_of_lt_of_le (Nat.two_pow_pos k) hx)] at h
    cases h

section Numerals

variable {negative : Bool} {significand leftOut : Nat} {x : Double}

/-- A numeral keeps its sign, that of zero included. -/
theorem negative_of_double? (h : double? negative significand (leftOut : Int) = some x) :
    x.negative = negative := by
  obtain ⟨y, hy, h⟩ := Option.bind_eq_some_iff.1 h
  obtain ⟨z, hz, h⟩ := Option.bind_eq_some_iff.1 h
  have hsign := (negative_of_scale? hz).trans (negative_of_ofRatio? hy)
  cases negative with
  | false =>
    cases h
    exact hsign
  | true =>
    cases h
    rw [if_pos rfl, negate, hsign]
    rfl

/-- A numeral reaches every power of two that its significand reaches. -/
theorem le_floor_of_double? {k : Nat} (hk : 2 ^ k ≤ significand)
    (h : double? negative significand (leftOut : Int) = some x) : 2 ^ k ≤ x.floor := by
  obtain ⟨y, hy, h⟩ := Option.bind_eq_some_iff.1 h
  obtain ⟨z, hz, h⟩ := Option.bind_eq_some_iff.1 h
  have hstart : 2 ^ k ≤ y.floor := le_floor_of_ofRatio? Nat.one_pos (by rwa [Nat.mul_one]) hy
  have hscaled := le_floor_of_scale? hstart hz
  cases negative with
  | false =>
    cases h
    exact hscaled
  | true =>
    cases h
    exact hscaled

end Numerals

/-! ## Digits that are left out -/

section LeftOut

variable {start significand leftOut : Nat} {digits : List Nat}

/-- A significand is no greater than the number of all digits. -/
theorem le_of_absorb (h : absorb start digits = (significand, leftOut)) :
    significand ≤ digits.foldl (fun n d => 10 * n + d) start := by
  induction digits generalizing start with
  | nil =>
    cases h
    exact Nat.le_refl _
  | cons d digits ih =>
    rw [absorb] at h
    split at h
    · exact ih h
    · cases h
      exact le_foldl_digits (d :: digits) _

/-- A significand that no digit was left out of is the number of its digits. -/
theorem eq_of_absorb_all (h : absorb start digits = (significand, 0)) :
    significand = digits.foldl (fun n d => 10 * n + d) start := by
  induction digits generalizing start with
  | nil =>
    cases h
    rfl
  | cons d digits ih =>
    rw [absorb] at h
    split at h
    · exact ih h
    · cases h

/-- Digits are left out of a significand only if it has grown to sixty bits. -/
theorem sixty_bits_of_absorb (hdigits : ∀ d ∈ digits, d ≤ 9)
    (h : absorb start digits = (significand, leftOut)) (hleftOut : leftOut ≠ 0) :
    2 ^ 60 ≤ significand := by
  induction digits generalizing start with
  | nil =>
    cases h
    exact absurd rfl hleftOut
  | cons d digits ih =>
    rw [List.forall_mem_cons] at hdigits
    rw [absorb] at h
    split at h
    · exact ih hdigits.2 h
    · cases h
      omega

end LeftOut

end Numeral
end CredentialCeremony
