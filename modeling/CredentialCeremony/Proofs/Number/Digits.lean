import Mathlib.Data.List.Induction

set_option autoImplicit false

/-!
# The digits of a number

A number is written in base ten without needless zeros: a zero in front stands alone. No other
digits of this form spell the number, so they are told from all spellings of it.

Main statement: `toDigits_ofDigitChars`.
-/

namespace CredentialCeremony

/-- A number other than zero is not written with a leading zero. -/
theorem head?_toDigits_ne_zero {n : Nat} (hn : 0 < n) :
    (Nat.toDigits 10 n).head? ≠ some '0' := by
  induction n using Nat.strongRecOn with
  | ind n ih =>
    by_cases hlt : n < 10
    · rw [Nat.toDigits_of_lt_base hlt, List.head?_cons, ne_eq, Option.some.injEq,
        Nat.digitChar_eq_zero]
      omega
    -- the leading digit is that of the quotient
    · have hfront := ih (n / 10) (by omega) (by omega)
      rw [Nat.toDigits_of_base_le (by decide) (by omega), List.head?_append]
      cases hdigits : Nat.toDigits 10 (n / 10) with
      | nil => exact absurd hdigits Nat.toDigits_ne_nil
      | cons d ds =>
        rw [hdigits] at hfront
        exact hfront

/-- A leading zero is the number zero, and stands alone. -/
theorem eq_nil_of_toDigits_eq_zero_cons {n : Nat} {ds : List Char}
    (h : Nat.toDigits 10 n = '0' :: ds) : ds = [] := by
  have hzero : n = 0 := by
    apply Nat.eq_zero_of_not_pos
    intro hpos
    apply head?_toDigits_ne_zero hpos
    rw [h, List.head?_cons]
  subst hzero
  rw [Nat.toDigits_zero, List.cons.injEq] at h
  exact h.2.symm

/-- A digit spells a number below ten. -/
theorem toNat_sub_lt_ten_of_isDigit {c : Char} (h : c.isDigit = true) :
    c.toNat - '0'.toNat < 10 := by
  have hnine : '9'.toNat = 57 := rfl
  have hzero : '0'.toNat = 48 := rfl
  have hle := (Char.isDigit_iff_toNat.1 h).2
  omega

/-- A digit is written for the number that it spells. -/
theorem toDigits_of_isDigit {c : Char} (h : c.isDigit = true) :
    Nat.toDigits 10 (c.toNat - '0'.toNat) = [c] := by
  have hlt := toNat_sub_lt_ten_of_isDigit h
  rw [Nat.toDigits_of_lt_base hlt, List.singleton_inj, ← Char.toNat_inj,
    Nat.toNat_digitChar_of_lt_ten hlt]
  exact Nat.add_sub_cancel' (Char.isDigit_iff_toNat.1 h).1

/-- Digits among which a zero in front stands alone are written for the number that they spell. -/
theorem toDigits_ofDigitChars {digits : List Char} (hne : digits ≠ [])
    (hdigits : ∀ c ∈ digits, c.isDigit = true)
    (hfront : ∀ behind, digits = '0' :: behind → behind = []) :
    Nat.toDigits 10 (Nat.ofDigitChars 10 digits 0) = digits := by
  induction digits using List.reverseRecOn with
  | nil => exact absurd rfl hne
  | append_singleton front c ih =>
    obtain ⟨hall, hlast⟩ := List.forall_mem_append.1 hdigits
    have hc : c.isDigit = true := hlast c List.mem_cons_self
    rw [Nat.ofDigitChars_append, Nat.ofDigitChars_cons, Nat.ofDigitChars_nil]
    by_cases hempty : front = []
    · subst hempty
      rw [Nat.ofDigitChars_nil, Nat.mul_zero, Nat.zero_add]
      exact toDigits_of_isDigit hc
    -- with a digit behind them, the digits in front start with no zero
    · have hzero : ∀ behind, front ≠ '0' :: behind := by
        rintro behind rfl
        have hnone := hfront (behind ++ [c]) rfl
        exact List.cons_ne_nil c [] (List.append_eq_nil_iff.1 hnone).2
      have hwritten := ih hempty hall fun behind h => absurd h (hzero behind)
      have hpos : 0 < Nat.ofDigitChars 10 front 0 := by
        apply Nat.pos_of_ne_zero
        intro hvalue
        rw [hvalue, Nat.toDigits_zero] at hwritten
        exact hzero [] hwritten.symm
      rw [← Nat.toDigits_append_toDigits (by decide) hpos (toNat_sub_lt_ten_of_isDigit hc),
        hwritten, toDigits_of_isDigit hc]

end CredentialCeremony
