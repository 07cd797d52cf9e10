import CredentialCeremony.Proofs.Json.Printing
import CredentialCeremony.Proofs.Number.Double
import CredentialCeremony.Proofs.Text.Pieces
import CredentialCeremony.Schema.Timeout

set_option autoImplicit false

/-!
# Timeouts that are whole numbers

A whole number is written as a number of its digits, or as a text of them with zeros and a sign in
front and blanks around (`Timeout.Decimal`). The two go different ways to a double, and the double
is exact only below 2 ^ 53; but the limit of a timeout lies so far below that no rounding crosses it.

Main statement: however it is written, a whole number is the timeout of as many milliseconds from 0
to 2 ^ 32 - 1, and no timeout with a minus sign or above (`Timeout.Decimal.ofJson_eq`).
-/

namespace CredentialCeremony

open Grammar

/-! ## Digits in a text -/

namespace Spelled

variable {d : Char} {ds : List Char}

theorem sign_of_digit (hd : d.isDigit = true) (ds : List Char) :
    sign (d :: ds) = (false, d :: ds) := by
  unfold sign
  split
  · rename_i h
    cases h
    cases hd
  · rename_i h
    cases h
    cases hd
  · rfl

theorem toLower_of_digit (hd : d.isDigit = true) : d.toLower = d := by
  have hle := (Char.isDigit_iff_toNat.1 hd).2
  have hnine : '9'.toNat = 57 := rfl
  refine dif_neg fun hupper => ?_
  have hge : 65 ≤ d.toNat := UInt32.le_iff_toNat_le.1 hupper.1
  omega

/-- No word for a number starts with a digit. -/
theorem isWord_of_digit (hd : d.isDigit = true) (ds : List Char) : isWord (d :: ds) = false := by
  have hi : d ≠ 'i' := by
    rintro rfl
    cases hd
  have hn : d ≠ 'n' := by
    rintro rfl
    cases hd
  simp [isWord, toLower_of_digit hd, hi, hn]

theorem digits_of_digits (hds : ∀ c ∈ ds, c.isDigit = true) :
    digits ds = (ds.map fun c => c.toNat - 48, []) := by
  have hall : ds.takeWhile Char.isDigit = ds ∧ ds.dropWhile Char.isDigit = [] := by
    induction ds with
    | nil => exact ⟨rfl, rfl⟩
    | cons d ds ih =>
      rw [List.forall_mem_cons] at hds
      simp [hds.1, ih hds.2]
  rw [digits, hall.1, hall.2]

/-- Digits spell the double nearest to their number. -/
theorem ofText?_of_digits {text : List Char} {negative : Bool}
    (hsign : sign text = (negative, ds)) (hds : ∀ c ∈ ds, c.isDigit = true) (hsome : ds ≠ []) :
    ofText? text =
      match Double.ofDecimal? negative (ofDigits (ds.map fun c => c.toNat - 48)) 0 with
      | some x => some (.finite x)
      | none => some .notFinite := by
  have hword : isWord ds = false := by
    cases ds with
    | nil => exact absurd rfl hsome
    | cons d ds => exact isWord_of_digit (hds d List.mem_cons_self) ds
  have hwhole : (ds.map fun c => c.toNat - 48).isEmpty = false := by simpa using hsome
  simp only [ofText?, hsign, hword, digits_of_digits hds, hwhole, Bool.false_eq_true, if_false,
    false_and, List.append_nil]
  rfl

end Spelled

/-! ## Whole numbers -/

namespace Timeout

/-- The timeout of a whole number without a minus sign and within 32 bits. -/
def ofWhole? (negative : Bool) (n : Nat) : Option UInt32 :=
  if negative = true ∨ 2 ^ 32 ≤ n then none else some (UInt32.ofNat n)

variable {negative : Bool} {n : Nat}

/-- A double with the sign of a whole number stands for the same timeout, if it is exact or both
reach the limit. -/
theorem ofDouble?_eq_ofWhole? {x : Double} (hsign : x.negative = negative)
    (hfloor : x.floor = n ∨ 2 ^ 32 ≤ x.floor ∧ 2 ^ 32 ≤ n) : ofDouble? x = ofWhole? negative n := by
  subst hsign
  rcases hfloor with rfl | ⟨hx, hn⟩
  · rfl
  · rw [ofDouble?, if_pos (.inr hx), ofWhole?, if_pos (.inr hn)]

/-- A number that is whole is a timeout unless it has a minus sign, which zero may have as well. -/
theorem ofNumber?_wholeNumber (negative : Bool) (n : Nat) :
    ofNumber? (wholeNumber negative n) = ofWhole? negative n := by
  cases negative with
  | false =>
    rw [wholeNumber, if_neg Bool.false_ne_true, ofNumber?, ofWhole?, Int.toNat_natCast]
    by_cases hn : n < 2 ^ 32
    · rw [if_pos (by omega), if_neg (by simpa using hn)]
    · rw [if_neg (by omega), if_pos (.inr (by omega))]
  | true =>
    have hnone : ofWhole? true n = none := if_pos (.inl rfl)
    rw [hnone, wholeNumber, if_pos rfl]
    split
    · rw [ofNumber?, if_neg (by omega)]
    · cases hdouble : Numeral.double? true n 0 with
      | none => rfl
      | some x =>
        have hzero : Numeral.double? true n ((0 : Nat) : Int) = some x := hdouble
        have hsign := Numeral.negative_of_double? hzero
        rw [Option.getD_some, ofNumber?, ofDouble?, if_pos (.inl hsign)]

/-- A numeral without fraction and exponent is the timeout of the whole number of its digits. -/
theorem ofNumber?_of_scanNumeral {number : Number} {rest : Bytes} (hrest : Delimited rest)
    (h : scanNumeral negative (utf8 n.repr ++ rest) = .ok (number, rest)) :
    ofNumber? number = ofWhole? negative n := by
  cases hdigits : Nat.toDigits 10 n with
  | nil => exact absurd hdigits Nat.toDigits_ne_nil
  | cons d ds =>
    have hnine : ∀ digit ∈ ds.map fun c => c.toNat - 48, digit ≤ 9 := by
      rw [List.forall_mem_map]
      intro c hc
      have hdigit : c.isDigit = true := Nat.isDigit_of_mem_toDigits (by decide) (by decide)
        (hdigits ▸ List.mem_cons_of_mem d hc)
      have hle : c.toNat ≤ 57 := (Char.isDigit_iff_toNat.1 hdigit).2
      omega
    obtain ⟨significand, leftOut, habsorb⟩ : ∃ significand leftOut, Numeral.absorb (d.toNat - 48)
        (ds.map fun c => c.toNat - 48) = (significand, leftOut) := ⟨_, _, rfl⟩
    have hnumber := foldl_of_toDigits_eq_cons hdigits
    rw [scanNumeral_of_toDigits negative hdigits habsorb hrest] at h
    by_cases hall : leftOut = 0
    · subst hall
      obtain rfl : significand = n := (Numeral.eq_of_absorb_all habsorb).trans hnumber
      rw [if_pos rfl] at h
      cases h
      exact ofNumber?_wholeNumber negative significand
    -- with digits left out, the significand alone is far above the limit
    · rw [if_neg hall, finishDouble] at h
      have hsignificand : 2 ^ 32 ≤ significand :=
        Nat.le_trans (by decide) (Numeral.sixty_bits_of_absorb hnine habsorb hall)
      have hle : significand ≤ n := hnumber ▸ Numeral.le_of_absorb habsorb
      cases hdouble : Numeral.double? negative significand leftOut with
      | none =>
        rw [hdouble] at h
        cases h
      | some x =>
        rw [hdouble] at h
        cases h
        exact ofDouble?_eq_ofWhole? (Numeral.negative_of_double? hdouble)
          (.inr ⟨Numeral.le_floor_of_double? hsignificand hdouble, Nat.le_trans hsignificand hle⟩)

/-- Digits without an exponent stand for the timeout of their whole number. -/
theorem ofDecimal?_bind_ofDouble? (negative : Bool) (n : Nat) :
    (Double.ofDecimal? negative n 0).bind ofDouble? = ofWhole? negative n := by
  by_cases hn : n < 2 ^ 32
  · obtain ⟨x, hx, hfloor⟩ := Double.ofDecimal?_of_lt negative (Nat.lt_trans hn (by decide))
    rw [hx, Option.bind_some]
    exact ofDouble?_eq_ofWhole? (Double.negative_of_ofDecimal? hx) (.inl hfloor)
  · have hgreat : 2 ^ 32 ≤ n := by omega
    cases hx : Double.ofDecimal? negative n 0 with
    | none => rw [Option.bind_none, ofWhole?, if_pos (.inr hgreat)]
    | some x =>
      rw [Option.bind_some]
      exact ofDouble?_eq_ofWhole? (Double.negative_of_ofDecimal? hx)
        (.inr ⟨Double.le_floor_of_ofDecimal? hgreat hx, hgreat⟩)

/-! ## The two forms of a whole number -/

/-- The signs that may stand in front of the digits in a text. -/
def signs (negative : Bool) : List (List Char) := if negative then [['-']] else [[], ['+']]

/-- The value is a whole number with or without a minus sign. As a number it is its digits; as a
text it may have zeros in front of them, a plus sign, and blanks of any script around. -/
inductive Decimal (negative : Bool) (n : Nat) : Json → Prop where
  | number {json : Json} {rest : Bytes} : Delimited rest →
      json.Spelled (utf8 ((if negative then "-" else "") ++ n.repr) ++ rest) rest →
        Decimal negative n json
  | text {before sign behind : List Char} {zeros : Nat} :
      (∀ c ∈ before, Text.isBlank c = true) → sign ∈ signs negative →
        (∀ c ∈ behind, Text.isBlank c = true) → Decimal negative n (.string (String.ofList
          (before ++ (sign ++ (List.replicate zeros '0' ++ Nat.toDigits 10 n)) ++ behind)))

theorem isDigit_of_mem_zeros {zeros : Nat} {c : Char}
    (hc : c ∈ List.replicate zeros '0' ++ Nat.toDigits 10 n) : c.isDigit = true := by
  rcases List.mem_append.1 hc with hc | hc
  · rw [List.eq_of_mem_replicate hc]
    rfl
  · exact Nat.isDigit_of_mem_toDigits (by decide) (by decide) hc

/-- Zeros in front of the digits of a number do not change it. -/
theorem ofDigits_zeros (zeros n : Nat) :
    ofDigits ((List.replicate zeros '0' ++ Nat.toDigits 10 n).map fun c => c.toNat - 48) = n := by
  have hvalue : Nat.ofDigitChars 10 (List.replicate zeros '0' ++ Nat.toDigits 10 n) 0 = n := by
    rw [Nat.ofDigitChars_append, Nat.ofDigitChars_replicate_zero, Nat.mul_zero,
      Nat.ofDigitChars_ten_toDigits]
  rw [Nat.ofDigitChars_eq_foldl] at hvalue
  rw [ofDigits, List.foldl_map]
  exact hvalue

theorem sign_of_mem {sign ds : List Char} (hsign : sign ∈ signs negative)
    (hds : ∀ c ∈ ds, c.isDigit = true) (hsome : ds ≠ []) :
    Spelled.sign (sign ++ ds) = (negative, ds) := by
  cases negative with
  | true =>
    obtain rfl : sign = ['-'] := List.mem_singleton.1 hsign
    rfl
  | false =>
    rcases List.mem_cons.1 hsign with rfl | hsign
    · cases ds with
      | nil => exact absurd rfl hsome
      | cons d ds => exact Spelled.sign_of_digit (hds d List.mem_cons_self) ds
    · obtain rfl : sign = ['+'] := List.mem_singleton.1 hsign
      rfl

theorem isBlank_of_mem_signs {sign : List Char} (hsign : sign ∈ signs negative) :
    ∀ c ∈ sign, Text.isBlank c = false := by
  have hsome : sign = ['-'] ∨ sign = ['+'] ∨ sign = [] := by
    cases negative with
    | true => exact .inl (List.mem_singleton.1 hsign)
    | false =>
      rcases List.mem_cons.1 hsign with hempty | hplus
      · exact .inr (.inr hempty)
      · exact .inr (.inl (List.mem_singleton.1 hplus))
  rcases hsome with rfl | rfl | rfl
  · exact List.forall_mem_singleton.2 rfl
  · exact List.forall_mem_singleton.2 rfl
  · exact List.forall_mem_nil _

/-- A whole number in a text is the timeout that it is by itself. -/
theorem ofText_of_digits {before sign behind : List Char} (zeros : Nat)
    (hbefore : ∀ c ∈ before, Text.isBlank c = true) (hsign : sign ∈ signs negative)
    (hbehind : ∀ c ∈ behind, Text.isBlank c = true) :
    ofText (String.ofList
      (before ++ (sign ++ (List.replicate zeros '0' ++ Nat.toDigits 10 n)) ++ behind)) =
      match ofWhole? negative n with
      | some millis => .ok millis
      | none => .error .notMilliseconds := by
  have hdigits : ∀ c ∈ List.replicate zeros '0' ++ Nat.toDigits 10 n, c.isDigit = true :=
    fun c hc => isDigit_of_mem_zeros hc
  have hsome : List.replicate zeros '0' ++ Nat.toDigits 10 n ≠ [] := by
    simp [Nat.toDigits_ne_nil]
  have hcore : ∀ c ∈ sign ++ (List.replicate zeros '0' ++ Nat.toDigits 10 n),
      Text.isBlank c = false := by
    rw [List.forall_mem_append]
    exact ⟨isBlank_of_mem_signs hsign, fun c hc => Text.isBlank_of_isDigit (hdigits c hc)⟩
  have htrim := Text.trim_of_blanks hbefore hcore hbehind
  have hspelled := Spelled.ofText?_of_digits (sign_of_mem hsign hdigits hsome) hdigits hsome
  rw [ofDigits_zeros] at hspelled
  rw [ofText, String.toList_ofList, htrim, hspelled, ← ofDecimal?_bind_ofDouble?]
  cases Double.ofDecimal? negative n 0 with
  | none => rfl
  | some x => rfl

/-- Where the digits of a whole number stand, the value is a number with their timeout. -/
theorem ofNumber?_of_spelled {json : Json} {rest : Bytes} (hrest : Delimited rest)
    (h : json.Spelled (utf8 ((if negative then "-" else "") ++ n.repr) ++ rest) rest) :
    ∃ number, json = .number number ∧ ofNumber? number = ofWhole? negative n := by
  cases negative with
  | true =>
    have hnext : Next '-' (utf8 ("-" ++ n.repr) ++ rest) (utf8 n.repr ++ rest) := by
      rw [utf8_append]
      exact Json.next_cons rfl
    obtain ⟨number, rfl⟩ := Json.opens_minus_iff.1 (h.opens_of_next hnext)
    exact ⟨number, rfl, ofNumber?_of_scanNumeral hrest ((Json.number_spelled_minus_iff hnext).1 h)⟩
  | false =>
    have hempty : "" ++ n.repr = n.repr := String.empty_append
    rw [if_neg Bool.false_ne_true, hempty] at h
    obtain ⟨b, digits, hdigits, hb⟩ := Json.exists_utf8_repr_eq_cons n
    have hnext : Next (Char.ofUInt8 b) (utf8 n.repr ++ rest) (digits ++ rest) := by
      rw [hdigits]
      exact Json.next_cons (Json.isSpace_of_isDigit hb)
    obtain ⟨number, rfl⟩ := (Json.opens_digit_iff hb).1 (h.opens_of_next hnext)
    rw [Json.number_spelled_digit_iff hnext hb, Json.unspaced_utf8_repr] at h
    exact ⟨number, rfl, ofNumber?_of_scanNumeral hrest h⟩

/-- A number of 64 bits that is whole is written as its digits. -/
theorem Decimal.of_wholeNumber (hn : n < 2 ^ 64) :
    Decimal negative n (.number (wholeNumber negative n)) := by
  have hscan := scanNumeral_repr negative hn delimited_nil
  refine .number delimited_nil ?_
  cases negative with
  | true =>
    have hnext : Next '-' (utf8 ("-" ++ n.repr) ++ []) (utf8 n.repr ++ []) := by
      rw [utf8_append]
      exact Json.next_cons rfl
    exact (Json.number_spelled_minus_iff hnext).2 hscan
  | false =>
    have hempty : "" ++ n.repr = n.repr := String.empty_append
    rw [if_neg Bool.false_ne_true, hempty]
    left
    rw [Json.unspaced_utf8_repr]
    exact hscan

/-- However a whole number is written, it is the timeout of as many milliseconds, or none. -/
theorem Decimal.ofJson_eq {json : Json} (h : Decimal negative n json) :
    ofJson json =
      match ofWhole? negative n with
      | some millis => .ok (some millis)
      | none => .error .notMilliseconds := by
  cases h with
  | number hrest hspelled =>
    obtain ⟨number, rfl, hnumber⟩ := ofNumber?_of_spelled hrest hspelled
    rw [← hnumber]
    rfl
  | text hbefore hsign hbehind =>
    rw [ofJson, ofText_of_digits _ hbefore hsign hbehind]
    cases ofWhole? negative n with
    | none => rfl
    | some millis => rfl

/-- A whole number holds no other value. -/
theorem Decimal.depth_eq {json : Json} (h : Decimal negative n json) : json.depth = 0 := by
  cases h with
  | number hrest hspelled =>
    obtain ⟨number, rfl, -⟩ := ofNumber?_of_spelled hrest hspelled
    rfl
  | text => rfl

end Timeout
end CredentialCeremony
