import CredentialCeremony.Proofs.Json.Spans
import CredentialCeremony.Proofs.Reading.Token

set_option autoImplicit false

/-!
# Tokens apart from what follows them

A word, a numeral or a string of the grammar is scanned alike whatever follows it, also where the
scanner refuses it (`scanWord_append`, `scanNumeral_append`, `scanString_append`). Only a numeral
looks further, and what follows has to stop it.
-/

namespace CredentialCeremony

open Grammar

variable {α : Type} {text rest more : Bytes}

/-- What a scanner answers on a text with more behind it, if it is settled by the text. -/
def widenScan (more : Bytes) : Except Bytes (α × Bytes) → Except Bytes (α × Bytes)
  | .ok (a, rest) => .ok (a, rest ++ more)
  | .error rest => .error (rest ++ more)

@[simp] theorem widenScan_nil (r : Except Bytes (α × Bytes)) : widenScan [] r = r := by
  cases r <;> simp [widenScan]

theorem widenScan_before (bytes : Bytes) (r : Except Bytes (Bytes × Bytes)) :
    widenScan more (before bytes r) = before bytes (widenScan more r) := by
  cases r <;> rfl

theorem scanWord_append {word : List Char} (h : word.length ≤ text.length) :
    scanWord word (text ++ more) = widenScan more (scanWord word text) := by
  fun_induction scanWord word text with
  | case1 text => rfl
  | case2 c word => exact absurd h (by simp)
  | case3 word b text ih =>
    rw [List.cons_append, scanWord, if_pos rfl]
    exact ih (by simpa using h)
  | case4 c word b text hb =>
    rw [List.cons_append, scanWord, if_neg hb]
    rfl

theorem takeDigits_widen (hmore : ¬ Starts Char.isDigit more) :
    takeDigits (text ++ more) = ((takeDigits text).1, (takeDigits text).2 ++ more) := by
  induction text with
  | nil => exact takeDigits_append (by simp) hmore
  | cons b text ih =>
    by_cases hb : (Char.ofUInt8 b).isDigit = true
    · simp only [List.cons_append, takeDigits, hb, if_true, ih]
    · simp [takeDigits, hb]

theorem scanExponentDigits_append (hmore : ¬ Starts Char.isDigit more) (exponent : Nat) :
    scanExponentDigits exponent (text ++ more) =
      ((scanExponentDigits exponent text).1, (scanExponentDigits exponent text).2 ++ more) := by
  induction text generalizing exponent with
  | nil =>
    cases more with
    | nil => rfl
    | cons b more =>
      rw [starts_cons_iff] at hmore
      simp [scanExponentDigits, hmore]
  | cons b text ih =>
    by_cases hb : (Char.ofUInt8 b).isDigit = true
    · simp only [List.cons_append, scanExponentDigits, hb, if_true, ih]
      split <;> rfl
    · simp [scanExponentDigits, hb]

theorem finishDouble_append (text more : Bytes) (negative : Bool) (significand : Nat)
    (exponent : Int) :
    finishDouble negative significand exponent (text ++ more) =
      widenScan more (finishDouble negative significand exponent text) := by
  unfold finishDouble
  cases Numeral.double? negative significand exponent <;> rfl

theorem scanSigned_append (hmore : ¬ Starts Char.isDigit more) (hsome : text ≠ []) (negative : Bool)
    (significand : Nat) (start : Int) (down : Bool) :
    scanSigned negative significand start down (text ++ more) =
      widenScan more (scanSigned negative significand start down text) := by
  cases text with
  | nil => exact absurd rfl hsome
  | cons b text =>
    by_cases hb : (Char.ofUInt8 b).isDigit = true
    · simp only [List.cons_append, scanSigned, hb, if_true, scanExponentDigits_append hmore]
      cases hdigits : scanExponentDigits ((Char.ofUInt8 b).toNat - 48) text with
      | mk exponent behind =>
        cases exponent with
        | some exponent => exact finishDouble_append ..
        -- an exponent too large to count still has its digits passed
        | none =>
          simp only [takeDigits_widen hmore]
          split <;> rfl
    · simp [scanSigned, hb, widenScan]

theorem exponentMark?_append (hmore : ¬ Starts (['e', 'E'].contains ·) more) :
    exponentMark? (text ++ more) = (exponentMark? text).map (· ++ more) := by
  cases text with
  | nil => exact exponentMark?_eq_none_iff.2 hmore
  | cons b text =>
    simp only [List.cons_append, exponentMark?]
    split <;> rfl

theorem scanExponent_append {digits : Bytes} (hmore : ¬ Starts Char.isDigit more)
    (h : Exponent text rest) (hmark : exponentMark? text = some digits) (negative : Bool)
    (significand : Nat) (start : Int) :
    scanExponent negative significand start (digits ++ more) =
      widenScan more (scanExponent negative significand start digits) := by
  have hsome {t : Bytes} (h : Digits t rest) : t ≠ [] := by
    rintro rfl
    exact absurd h.length_lt (Nat.not_lt_zero _)
  obtain ⟨b, rfl, -⟩ := exponentMark?_eq_some_iff.1 hmark
  cases h with
  | absent hstop => exact absurd (exponentMark?_eq_none_iff.2 hstop) (by simp [hmark])
  | bare _ h =>
    cases digits with
    | nil => exact absurd rfl (hsome h)
    | cons s digits =>
      have hbare := not_sign_of_digits h
      have hscan (t : Bytes) : scanExponent negative significand start (s :: t) =
          scanSigned negative significand start false (s :: t) := by
        simp only [scanExponent]
        split <;> simp_all
      rw [List.cons_append, hscan, hscan]
      exact scanSigned_append hmore (List.cons_ne_nil s digits) ..
  | signed _ hs h =>
    simp only [List.mem_cons, List.not_mem_nil, or_false] at hs
    rcases hs with hs | hs
    · simp only [List.cons_append, scanExponent, hs]
      exact scanSigned_append hmore (hsome h) ..
    · simp only [List.cons_append, scanExponent, hs]
      exact scanSigned_append hmore (hsome h) ..

/-- Up to the end of its exponent a numeral is a fraction, whatever stops it. -/
theorem scanFraction_append {t : Bytes} (hmore : Stops more) (hdigits : Digits text t)
    (hexponent : Exponent t rest) (negative : Bool) (significand : Nat) (start : Int) :
    scanFraction negative significand start (text ++ more) =
      widenScan more (scanFraction negative significand start text) := by
  obtain ⟨hsome, rfl⟩ := passDigits_eq_ok_iff.1 (passDigits_eq_ok_iff_digits.2 hdigits)
  have hempty : (takeDigits text).1.isEmpty = false := by simpa using hsome
  simp only [scanFraction, takeDigits_widen hmore.not_digit, hempty, Bool.false_eq_true, if_false,
    exponentMark?_append hmore.not_exponent]
  cases hmark : exponentMark? (takeDigits text).2 with
  | some digits => exact scanExponent_append hmore.not_digit hexponent hmark ..
  | none => exact finishDouble_append ..

/-- Behind its whole part a numeral is what it is with any other text that stops it. -/
theorem takeDigits_of_whole {b : UInt8} {t : Bytes} (hb : (Char.ofUInt8 b).isDigit = true)
    (h : Whole (b :: text) t) : (takeDigits text).2 = t := by
  have hzero : Char.ofUInt8 b = '0' → (takeDigits text).1 = [] := by
    intro hb
    cases h with
    | zero _ hstop => exact takeDigits_eq_nil_iff.2 hstop
    | digits hne _ => exact absurd hb hne
  exact Except.ok.inj ((passWhole_of_digit hb hzero).symm.trans (passWhole_eq_ok_iff.2 h))

/-- A numeral is scanned alike whatever stops it. -/
theorem scanNumeral_append (hmore : Stops more) (h : Numeral text []) (negative : Bool) :
    scanNumeral negative (text ++ more) = widenScan more (scanNumeral negative text) := by
  obtain ⟨b, text, rfl, hb⟩ := exists_digit_of_numeral h
  obtain ⟨t, u, hwhole, hfraction, hexponent⟩ := h
  have hrest := takeDigits_of_whole hb hwhole
  simp only [List.cons_append, scanNumeral, hb, not_true_eq_false, if_false,
    takeDigits_widen hmore.not_digit, hrest]
  split
  · rfl
  -- what follows the whole part decides between the three kinds of numerals
  cases hfraction with
  | present hpoint hdigits =>
    simp only [List.cons_append, exponentMark?, hpoint, Char.reduceEq, or_self, if_false, if_true]
    exact scanFraction_append hmore hdigits hexponent ..
  | absent =>
    cases hmark : exponentMark? t with
    | some digits =>
      simp only [exponentMark?_append hmore.not_exponent, hmark, Option.map_some]
      exact scanExponent_append hmore.not_digit hexponent hmark ..
    | none =>
      have hnothing : t = [] := by
        cases hexponent with
        | absent => rfl
        | bare hb _ => simp_all [exponentMark?]
        | signed hb _ _ => simp_all [exponentMark?]
      subst hnothing
      have hstop := exponentMark?_eq_none_iff.2 hmore.not_exponent
      cases more with
      | nil => simp only [List.append_nil, hmark, widenScan_nil]
      | cons c more =>
        have hpoint : Char.ofUInt8 c ≠ '.' := by simpa using hmore.not_point
        simp only [List.nil_append, hstop, hpoint, if_false]
        split
        · rfl
        · exact finishDouble_append [] (c :: more) ..

/-- A string is scanned alike whatever stands behind it. -/
theorem scanString_append (more : Bytes) : {text rest : Bytes} → Escaped text rest →
    scanString (text ++ more) = widenScan more (scanString text)
  | _, _, .close hq => by
    rw [List.cons_append, scanString.eq_def, scanString.eq_def]
    simp only [hq]
    rfl
  | _, _, .plain hq hs hc h => by
    rw [List.cons_append, scanString_plain _ hq hs hc, scanString_plain _ hq hs hc,
      scanString_append more h, widenScan_before]
  | _, _, .letter hb hletter h => by
    obtain ⟨plain, hplain⟩ := Option.isSome_iff_exists.1 (isSome_escapedByte?_iff.2 hletter)
    simp only [List.cons_append]
    rw [scanString.eq_def, scanString.eq_def]
    simp only [hb, ne_u_of_escapedByte? hplain, if_false, hplain, scanString_append more h,
      widenScan_before]
  | _, _, .unit hb hu hdigits h => by
    obtain ⟨n, hn⟩ := Option.isSome_iff_exists.1 (isSome_hexUnit?_iff.2 hdigits)
    have ih := scanString_append more h
    simp only [List.cons_append]
    rw [scanString.eq_def, scanString.eq_def]
    simp only [hb, hu, hn, if_true]
    by_cases hlow : 0xDC00 ≤ n ∧ n ≤ 0xDFFF
    · simp only [hlow, and_self, if_true]
      rfl
    by_cases hhigh : 0xD800 ≤ n ∧ n ≤ 0xDBFF
    · simp only [hlow, hhigh, and_self, if_true, if_false]
      -- behind a high half only its low half may stand
      cases h with
      | close hq => simp [hq, widenScan]
      | plain hq hs hc h => simp [hs, widenScan]
      | letter hb' hletter h =>
        obtain ⟨plain, hplain⟩ := Option.isSome_iff_exists.1 (isSome_escapedByte?_iff.2 hletter)
        simp [hb', ne_u_of_escapedByte? hplain, widenScan]
      | unit hb' hu' hdigits' h =>
        obtain ⟨m, hm⟩ := Option.isSome_iff_exists.1 (isSome_hexUnit?_iff.2 hdigits')
        simp only [List.cons_append, hb', hu', hm, if_true]
        split
        · rw [scanString_append more h, widenScan_before]
        · rfl
    · simp only [hlow, hhigh, if_false, ih, widenScan_before]

end CredentialCeremony
