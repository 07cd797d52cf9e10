import CredentialCeremony.Proofs.Json.Grammar
import CredentialCeremony.Proofs.Traversal
import CredentialCeremony.Reading.Skip

set_option autoImplicit false

/-!
# Words, strings and numerals against the grammar

A string is passed exactly if the grammar has it (`passString_eq_ok_iff`); it is read exactly if its
escapes also stand for characters, and then as the bytes they stand for (`scanString_eq_ok_iff`).
A numeral that is passed or read is one of the grammar (`numeral_of_passNumeral`,
`numeral_of_scanNumeral`), and one that is read is passed up to the same place
(`passNumeral_of_scanNumeral`).
-/

namespace CredentialCeremony

open Grammar

/-! ## Words -/

theorem scanWord_eq_ok_iff {word : List Char} {text rest : Bytes} {u : Unit} :
    scanWord word text = .ok (u, rest) ↔
      ∃ bytes : Bytes, bytes.map Char.ofUInt8 = word ∧ text = bytes ++ rest := by
  -- on the word, since it is the word that is walked along the text
  induction word generalizing text with
  | nil =>
    constructor
    · intro h
      cases h
      exact ⟨[], rfl, rfl⟩
    · rintro ⟨bytes, hmap, rfl⟩
      rw [List.map_eq_nil_iff] at hmap
      subst hmap
      rfl
  | cons c word ih =>
    cases text with
    | nil =>
      apply iff_of_false (by simp [scanWord])
      rintro ⟨bytes, hmap, htext⟩
      obtain ⟨rfl, -⟩ := List.append_eq_nil_iff.1 htext.symm
      simp at hmap
    | cons b text =>
      by_cases hb : Char.ofUInt8 b = c
      · simp only [scanWord, hb, if_true, ih]
        constructor
        · rintro ⟨bytes, hmap, rfl⟩
          exact ⟨b :: bytes, by simp [hb, hmap], rfl⟩
        · rintro ⟨bytes, hmap, htext⟩
          cases bytes with
          | nil => simp at hmap
          | cons a bytes =>
            simp only [List.map_cons, List.cons.injEq] at hmap
            simp only [List.cons_append, List.cons.injEq] at htext
            exact ⟨bytes, hmap.2, htext.2⟩
      -- a byte that is not the next character of the word ends the scan
      · simp only [scanWord, hb, if_false]
        apply iff_of_false (by simp)
        rintro ⟨bytes, hmap, htext⟩
        cases bytes with
        | nil => simp at hmap
        | cons a bytes =>
          simp only [List.map_cons, List.cons.injEq] at hmap
          simp only [List.cons_append, List.cons.injEq] at htext
          exact hb (htext.1 ▸ hmap.1)

/-! ## Strings -/

/-- A string behind its opening mark, the bytes that it stands for, and the text behind its closing
mark. A numbered escape stands for a character; two of them may be the halves of one. -/
inductive Chars : Bytes → Bytes → Bytes → Prop where
  | close {b : UInt8} {rest : Bytes} : Char.ofUInt8 b = '"' → Chars (b :: rest) [] rest
  | plain {b : UInt8} {text content rest : Bytes} : Char.ofUInt8 b ≠ '"' →
      Char.ofUInt8 b ≠ '\\' → ¬ b < 0x20 → Chars text content rest →
      Chars (b :: text) (b :: content) rest
  | letter {b e p : UInt8} {text content rest : Bytes} : Char.ofUInt8 b = '\\' →
      escapedByte? e = some p → Chars text content rest →
      Chars (b :: e :: text) (p :: content) rest
  | unit {b e h₁ h₂ h₃ h₄ : UInt8} {text content rest : Bytes} {n : Nat} :
      Char.ofUInt8 b = '\\' → Char.ofUInt8 e = 'u' → hexUnit? h₁ h₂ h₃ h₄ = some n →
      ¬ (0xD800 ≤ n ∧ n ≤ 0xDFFF) → Chars text content rest →
      Chars (b :: e :: h₁ :: h₂ :: h₃ :: h₄ :: text) (utf8Char n ++ content) rest
  | pair {b e h₁ h₂ h₃ h₄ b' e' l₁ l₂ l₃ l₄ : UInt8} {text content rest : Bytes} {n m : Nat} :
      Char.ofUInt8 b = '\\' → Char.ofUInt8 e = 'u' → hexUnit? h₁ h₂ h₃ h₄ = some n →
      0xD800 ≤ n ∧ n ≤ 0xDBFF → Char.ofUInt8 b' = '\\' → Char.ofUInt8 e' = 'u' →
      hexUnit? l₁ l₂ l₃ l₄ = some m → 0xDC00 ≤ m ∧ m ≤ 0xDFFF → Chars text content rest →
      Chars
        (b :: e :: h₁ :: h₂ :: h₃ :: h₄ :: b' :: e' :: l₁ :: l₂ :: l₃ :: l₄ :: text)
        (utf8Char ((n - 0xD800) * 1024 + (m - 0xDC00) + 0x10000) ++ content) rest

theorem before_eq_ok_iff {front content rest : Bytes} {r : Except Bytes (Bytes × Bytes)} :
    before front r = .ok (content, rest) ↔
      ∃ taken, r = .ok (taken, rest) ∧ content = front ++ taken := by
  cases r with
  | error e => simp [before, Except.map]
  | ok p =>
    obtain ⟨taken, rest'⟩ := p
    simp only [before, Except.map, Except.ok.injEq, Prod.mk.injEq]
    constructor
    · rintro ⟨rfl, rfl⟩
      exact ⟨taken, ⟨rfl, rfl⟩, rfl⟩
    · rintro ⟨_, ⟨rfl, rfl⟩, rfl⟩
      exact ⟨rfl, rfl⟩

/-- What the scanner takes is a string of characters. -/
theorem chars_of_scanString {text content rest : Bytes}
    (h : scanString text = .ok (content, rest)) : Chars text content rest := by
  fun_induction scanString text generalizing content with
  | case2 b text hq =>
    cases h
    exact .close hq
  -- a high half with its low half behind it
  | case9 b hb e he h₁ h₂ h₃ h₄ n hn hlow hhigh b' hb' e' he' l₁ l₂ l₃ l₄ text m hm hpair ih =>
    obtain ⟨taken, htaken, hcontent⟩ := before_eq_ok_iff.1 h
    rw [hcontent]
    exact .pair hb he hn hhigh hb' he' hm hpair (ih htaken)
  -- a numbered escape that is no half at all
  | case14 b hb e he h₁ h₂ h₃ h₄ text n hn hlow hhigh ih =>
    obtain ⟨taken, htaken, rfl⟩ := before_eq_ok_iff.1 h
    have hscalar : ¬ (0xD800 ≤ n ∧ n ≤ 0xDFFF) := by omega
    exact .unit hb he hn hscalar (ih htaken)
  | case16 b hb e text he p hp ih =>
    obtain ⟨taken, htaken, rfl⟩ := before_eq_ok_iff.1 h
    exact .letter hb hp (ih htaken)
  | case19 b text hc hq hs ih =>
    obtain ⟨taken, htaken, rfl⟩ := before_eq_ok_iff.1 h
    exact .plain hq hs hc (ih htaken)
  -- every other way through the scanner fails
  | _ => cases h

/-- A letter that may follow a backslash is no `u`. -/
theorem ne_u_of_escapedByte? {e p : UInt8} (h : escapedByte? e = some p) :
    Char.ofUInt8 e ≠ 'u' := by
  intro he
  simp [escapedByte?, he] at h

/-- A string of characters is taken by the scanner. -/
theorem scanString_of_chars {text content rest : Bytes} (h : Chars text content rest) :
    scanString text = .ok (content, rest) := by
  induction h with
  | close hq =>
    rw [scanString.eq_def]
    simp only [hq]
  | plain hq hs hc _ ih =>
    rw [scanString_plain _ hq hs hc, ih]
    rfl
  | letter hb hp _ ih =>
    rw [scanString.eq_def]
    simp only [hb, ne_u_of_escapedByte? hp, if_false, hp, ih]
    rfl
  | @unit b e h₁ h₂ h₃ h₄ text content rest n hb he hn hscalar _ ih =>
    have hlow : ¬ (0xDC00 ≤ n ∧ n ≤ 0xDFFF) := by omega
    have hhigh : ¬ (0xD800 ≤ n ∧ n ≤ 0xDBFF) := by omega
    rw [scanString.eq_def]
    simp only [hb, he, if_true, hn, hlow, hhigh, if_false, ih]
    rfl
  -- the two halves have to be told apart from a lone low half first
  | @pair b e h₁ h₂ h₃ h₄ b' e' l₁ l₂ l₃ l₄ text content rest n m hb he hn hhigh hb' he' hm
      hpair _ ih =>
    have hlow : ¬ (0xDC00 ≤ n ∧ n ≤ 0xDFFF) := by omega
    rw [scanString.eq_def]
    simp only [hb, he, if_true, hn, hlow, if_false, hhigh, hb', he', hm, hpair, and_self, ih]
    rfl

theorem scanString_eq_ok_iff {text content rest : Bytes} :
    scanString text = .ok (content, rest) ↔ Chars text content rest :=
  ⟨chars_of_scanString, scanString_of_chars⟩

/-- A text stands for one string at most, and it ends in one place. -/
theorem Chars.unique {text r₁ r₂ : Bytes} {s₁ s₂ : String} (h₁ : Chars text (utf8 s₁) r₁)
    (h₂ : Chars text (utf8 s₂) r₂) : s₁ = s₂ ∧ r₁ = r₂ := by
  have heq := (scanString_of_chars h₁).symm.trans (scanString_of_chars h₂)
  rw [Except.ok.injEq, Prod.mk.injEq] at heq
  -- the bytes agree, and they encode one text only
  have hs : some s₁ = some s₂ := by
    rw [← ofUtf8?_utf8 s₁, ← ofUtf8?_utf8 s₂, heq.1]
  exact ⟨Option.some.inj hs, heq.2⟩

theorem isSome_escapedByte?_iff {e : UInt8} : (escapedByte? e).isSome = true ↔
    Char.ofUInt8 e ∈ ['"', '\\', '/', 'b', 'f', 'n', 'r', 't'] := by
  rw [escapedByte?]
  split <;> simp_all

/-- All elements have an image together exactly if each of them has one. -/
theorem isSome_hexUnit?_iff {h₁ h₂ h₃ h₄ : UInt8} : (hexUnit? h₁ h₂ h₃ h₄).isSome = true ↔
    ∀ h ∈ [h₁, h₂, h₃, h₄], (Text.hexValue? (Char.ofUInt8 h)).isSome = true := by
  rw [← isSome_mapM_iff]
  rw [hexUnit?]
  cases [h₁, h₂, h₃, h₄].mapM fun digit => Text.hexValue? (Char.ofUInt8 digit) <;> rfl

/-- A string is passed exactly if it is one of the grammar. -/
theorem passString_eq_ok_iff {text rest : Bytes} {u : Unit} :
    passString text = .ok (u, rest) ↔ Escaped text rest := by
  constructor
  -- the two recursions have the same cases
  · intro h
    fun_induction passString text with
    | case2 b text hq =>
      cases h
      exact .close hq
    | case4 b hb e he h₁ h₂ h₃ h₄ text hunit ih =>
      exact .unit hb he (isSome_hexUnit?_iff.1 hunit) (ih h)
    | case7 b hb e text he hp ih => exact .letter hb (isSome_escapedByte?_iff.1 hp) (ih h)
    | case10 b text hc hq hs ih => exact .plain hq hs hc (ih h)
    | _ => cases h
  · intro h
    induction h with
    | close hq =>
      rw [passString.eq_def]
      simp only [hq]
    | plain hq hs hc _ ih =>
      rw [passString.eq_def]
      simp only [hc, if_false, ih]
    | letter hb he _ ih =>
      obtain ⟨p, hp⟩ := Option.isSome_iff_exists.1 (isSome_escapedByte?_iff.2 he)
      rw [passString.eq_def]
      simp only [hb, ne_u_of_escapedByte? hp, if_false, hp, Option.isSome_some, if_true, ih]
    | unit hb he hhex _ ih =>
      rw [passString.eq_def]
      simp only [hb, he, if_true, isSome_hexUnit?_iff.2 hhex, ih]

/-- A string of characters is one of the grammar. -/
theorem Chars.escaped {text content rest : Bytes} (h : Chars text content rest) :
    Escaped text rest := by
  induction h with
  | close hq => exact .close hq
  | plain hq hs hc _ ih => exact .plain hq hs hc ih
  | letter hb hp _ ih =>
    exact .letter hb (isSome_escapedByte?_iff.1 (Option.isSome_of_mem hp)) ih
  | unit hb he hn _ _ ih =>
    exact .unit hb he (isSome_hexUnit?_iff.1 (Option.isSome_of_mem hn)) ih
  -- the grammar takes two halves as two escapes
  | pair hb he hn _ hb' he' hm _ _ ih =>
    exact .unit hb he (isSome_hexUnit?_iff.1 (Option.isSome_of_mem hn))
      (.unit hb' he' (isSome_hexUnit?_iff.1 (Option.isSome_of_mem hm)) ih)

/-! ## Numerals -/

/-- The digits at the front of a text are taken as far as they go. -/
theorem takeDigits_append {digits rest : Bytes}
    (hall : ∀ b ∈ digits, (Char.ofUInt8 b).isDigit = true) (hrest : ¬ Starts Char.isDigit rest) :
    takeDigits (digits ++ rest) = (digits.map fun b => (Char.ofUInt8 b).toNat - 48, rest) := by
  induction digits with
  | nil =>
    cases rest with
    | nil => rfl
    | cons b rest =>
      rw [starts_cons_iff] at hrest
      simp [takeDigits, hrest]
  | cons b digits ih =>
    rw [List.forall_mem_cons] at hall
    simp only [List.cons_append, takeDigits, hall.1, if_true, ih hall.2, List.map_cons]

/-- What is taken are digits, and no digit is left behind them. -/
theorem exists_digits (text : Bytes) : ∃ digits : Bytes,
    (∀ b ∈ digits, (Char.ofUInt8 b).isDigit = true) ∧ text = digits ++ (takeDigits text).2 ∧
      ¬ Starts Char.isDigit (takeDigits text).2 := by
  induction text with
  | nil => exact ⟨[], by simp, rfl, not_starts_nil⟩
  | cons b text ih =>
    by_cases hb : (Char.ofUInt8 b).isDigit = true
    · obtain ⟨digits, hall, htext, hrest⟩ := ih
      simp only [takeDigits, hb, if_true]
      exact ⟨b :: digits, by simpa [hb] using hall, by rw [List.cons_append, ← htext], hrest⟩
    · refine ⟨[], by simp, ?_, ?_⟩
      · simp [takeDigits, hb]
      · simp [takeDigits, hb]

theorem passDigits_eq_ok_iff {text rest : Bytes} :
    passDigits text = .ok rest ↔ (takeDigits text).1 ≠ [] ∧ (takeDigits text).2 = rest := by
  by_cases h : (takeDigits text).1 = [] <;> simp [passDigits, h]

/-- Digits are passed exactly if they are those of the grammar. -/
theorem passDigits_eq_ok_iff_digits {text rest : Bytes} :
    passDigits text = .ok rest ↔ Digits text rest := by
  rw [passDigits_eq_ok_iff]
  constructor
  · rintro ⟨hsome, rfl⟩
    obtain ⟨digits, hall, htext, hrest⟩ := exists_digits text
    refine ⟨digits, ?_, hall, htext, hrest⟩
    -- without a digit nothing would have been taken off the text
    rintro rfl
    have hlength := takeDigits_length text
    rw [List.nil_append] at htext
    rw [← htext] at hlength
    exact hsome (List.length_eq_zero_iff.1 (by omega))
  · rintro ⟨digits, hsome, hall, rfl, hrest⟩
    rw [takeDigits_append hall hrest]
    exact ⟨by simpa using hsome, rfl⟩

theorem exponentMark?_eq_some_iff {text rest : Bytes} : exponentMark? text = some rest ↔
    ∃ b, text = b :: rest ∧ Char.ofUInt8 b ∈ ['e', 'E'] := by
  cases text with
  | nil => simp [exponentMark?]
  | cons b text =>
    by_cases hb : Char.ofUInt8 b = 'e' ∨ Char.ofUInt8 b = 'E'
    · simp only [exponentMark?, hb, if_true]
      grind
    · simp only [exponentMark?, hb, if_false]
      grind

theorem exponentMark?_eq_none_iff {text : Bytes} :
    exponentMark? text = none ↔ ¬ Starts (['e', 'E'].contains ·) text := by
  cases text with
  | nil => simp [exponentMark?]
  | cons b text => simp [exponentMark?]

theorem takeDigits_eq_nil_iff {text : Bytes} :
    (takeDigits text).1 = [] ↔ ¬ Starts Char.isDigit text := by
  cases text with
  | nil => simp [takeDigits]
  | cons b text => by_cases hb : (Char.ofUInt8 b).isDigit = true <;> simp [takeDigits, hb]

theorem passWhole_eq_ok_iff {text rest : Bytes} : passWhole text = .ok rest ↔ Whole text rest := by
  cases text with
  | nil =>
    apply iff_of_false (by simp [passWhole])
    rintro ⟨⟩
  | cons b text =>
    by_cases hb : Char.ofUInt8 b = '0'
    -- a zero stands alone
    · have halone : (takeDigits text).1.isEmpty = true ↔ ¬ Starts Char.isDigit text := by
        rw [List.isEmpty_iff, takeDigits_eq_nil_iff]
      simp only [passWhole, hb, if_true]
      constructor
      · intro h
        split at h
        · rename_i hempty
          cases h
          exact .zero hb (halone.1 hempty)
        · cases h
      · intro h
        cases h with
        | zero _ hstop => rw [if_pos (halone.2 hstop)]
        | digits hne _ => exact absurd hb hne
    -- any other digit may have more behind it, and what is no digit fails with them
    · simp only [passWhole, hb, if_false, passDigits_eq_ok_iff_digits]
      constructor
      · intro h
        exact .digits hb h
      · intro h
        cases h with
        | zero hzero _ => exact absurd hzero hb
        | digits _ h => exact h

theorem passFraction_eq_ok_iff {text rest : Bytes} :
    passFraction text = .ok rest ↔ Fraction text rest := by
  cases text with
  | nil =>
    constructor
    · intro h
      cases h
      exact .absent not_starts_nil
    · intro h
      cases h with
      | absent _ => rfl
  | cons b text =>
    by_cases hb : Char.ofUInt8 b = '.'
    · simp only [passFraction, hb, if_true, passDigits_eq_ok_iff_digits]
      constructor
      · intro h
        exact .present hb h
      · intro h
        cases h with
        | absent hstop => simp [hb] at hstop
        | present _ h => exact h
    · simp only [passFraction, hb, if_false, Except.ok.injEq]
      constructor
      · rintro rfl
        exact .absent (by simpa using hb)
      · intro h
        cases h with
        | absent _ => rfl
        | present hpoint _ => exact absurd hpoint hb

/-- A digit is no sign. -/
theorem not_sign_of_digits {b : UInt8} {text rest : Bytes} (h : Digits (b :: text) rest) :
    Char.ofUInt8 b ∉ ['+', '-'] := by
  obtain ⟨digits, hsome, hall, htext, -⟩ := h
  cases digits with
  | nil => exact absurd rfl hsome
  | cons d digits =>
    obtain ⟨rfl, -⟩ := List.cons.inj htext
    have hd := hall _ List.mem_cons_self
    intro hmem
    simp only [List.mem_cons, List.not_mem_nil, or_false] at hmem
    rcases hmem with hsign | hsign <;> simp [hsign] at hd

theorem passExponent_eq_ok_iff {text rest : Bytes} :
    passExponent text = .ok rest ↔ Exponent text rest := by
  cases hmark : exponentMark? text with
  | none =>
    simp only [passExponent, hmark, Except.ok.injEq]
    rw [exponentMark?_eq_none_iff] at hmark
    constructor
    · rintro rfl
      exact .absent hmark
    · intro h
      cases h with
      | absent _ => rfl
      | bare hb _ => simp_all
      | signed hb _ _ => simp_all
  -- behind the mark a sign may stand, which no digit can be taken for
  | some digits =>
    obtain ⟨b, rfl, hb⟩ := exponentMark?_eq_some_iff.1 hmark
    cases digits with
    | nil =>
      simp only [passExponent, hmark]
      apply iff_of_false (by simp)
      intro h
      cases h with
      | absent hstop => simp_all
      | bare _ h => exact absurd h.length_lt (by simp)
    | cons s digits =>
      by_cases hs : Char.ofUInt8 s ∈ ['+', '-']
      · have hpass : passExponent (b :: s :: digits) = passDigits digits := by
          simp only [List.mem_cons, List.not_mem_nil, or_false] at hs
          rcases hs with hs | hs <;> simp only [passExponent, hmark, hs]
        rw [hpass, passDigits_eq_ok_iff_digits]
        constructor
        · intro h
          exact .signed hb hs h
        · intro h
          cases h with
          | absent hstop => simp_all
          | bare _ h => exact absurd hs (not_sign_of_digits h)
          | signed _ _ h => exact h
      · have hpass : passExponent (b :: s :: digits) = passDigits (s :: digits) := by
          simp only [passExponent, hmark]
          split <;> simp_all
        rw [hpass, passDigits_eq_ok_iff_digits]
        constructor
        · intro h
          exact .bare hb h
        · intro h
          cases h with
          | absent hstop => simp_all
          | bare _ h => exact h
          | signed _ hsign _ => exact absurd hsign hs

theorem passNumeral_eq_ok_iff {text rest : Bytes} {u : Unit} : passNumeral text = .ok (u, rest) ↔
    ∃ t v, passWhole text = .ok t ∧ passFraction t = .ok v ∧ passExponent v = .ok rest := by
  rw [passNumeral]
  cases hwhole : passWhole text with
  | error e => simp [bind, Except.bind]
  | ok t =>
    cases hfraction : passFraction t with
    | error e => simp [bind, Except.bind, hfraction]
    | ok v => cases hexponent : passExponent v <;> simp [bind, Except.bind, pure, Except.pure, *]

/-- A numeral is passed exactly if it is one of the grammar. -/
theorem passNumeral_eq_ok_iff_numeral {text rest : Bytes} {u : Unit} :
    passNumeral text = .ok (u, rest) ↔ Numeral text rest := by
  simp only [passNumeral_eq_ok_iff, passWhole_eq_ok_iff, passFraction_eq_ok_iff,
    passExponent_eq_ok_iff, Numeral]

theorem finishDouble_eq_ok {negative : Bool} {significand : Nat} {exponent : Int}
    {text rest : Bytes} {n : Number}
    (h : finishDouble negative significand exponent text = .ok (n, rest)) : text = rest := by
  unfold finishDouble at h
  cases hdouble : Numeral.double? negative significand exponent <;> simp_all

/-- Wherever the digits of an exponent stop counting, those that follow are all taken. -/
theorem takeDigits_of_scanExponentDigits {text rest : Bytes} {start : Nat} {exponent : Option Nat}
    (h : scanExponentDigits start text = (exponent, rest)) :
    (takeDigits text).2 = if exponent.isSome then rest else (takeDigits rest).2 := by
  induction text generalizing start with
  | nil =>
    obtain ⟨rfl, rfl⟩ := Prod.mk.inj h
    rfl
  | cons b text ih =>
    by_cases hb : (Char.ofUInt8 b).isDigit = true
    · simp only [scanExponentDigits, hb, if_true] at h
      simp only [takeDigits, hb, if_true]
      split at h
      -- here the exponent is too large, and what is behind is left to the caller
      · obtain ⟨rfl, rfl⟩ := Prod.mk.inj h
        rfl
      · exact ih h
    · simp only [scanExponentDigits, hb, Bool.false_eq_true, if_false, Prod.mk.injEq] at h
      obtain ⟨rfl, rfl⟩ := h
      simp [takeDigits, hb]

theorem passDigits_of_scanSigned {negative down : Bool} {significand : Nat} {start : Int}
    {text rest : Bytes} {n : Number}
    (h : scanSigned negative significand start down text = .ok (n, rest)) :
    passDigits text = .ok rest := by
  rw [passDigits_eq_ok_iff]
  cases text with
  | nil => cases h
  | cons b text =>
    by_cases hb : (Char.ofUInt8 b).isDigit = true
    · simp only [scanSigned, hb, if_true] at h
      simp only [takeDigits, hb, if_true, ne_eq, reduceCtorEq, not_false_eq_true, true_and]
      cases hdigits : scanExponentDigits ((Char.ofUInt8 b).toNat - 48) text with
      | mk exponent behind =>
        rw [takeDigits_of_scanExponentDigits hdigits]
        cases exponent with
        -- an exponent too large to count still has its digits passed
        | none =>
          simp only [hdigits] at h
          split at h
          · cases h
          · cases h
            rfl
        | some exponent =>
          simp only [hdigits] at h
          exact finishDouble_eq_ok h
    · simp [scanSigned, hb] at h

/-- An exponent that is read is passed up to the same place. -/
theorem passExponent_of_scanExponent {negative : Bool} {significand : Nat} {start : Int}
    {text digits rest : Bytes} {n : Number} (hmark : exponentMark? text = some digits)
    (h : scanExponent negative significand start digits = .ok (n, rest)) :
    passExponent text = .ok rest := by
  cases digits with
  | nil => cases h
  | cons s digits =>
    by_cases hplus : Char.ofUInt8 s = '+'
    · have hpass : passExponent text = passDigits digits := by
        simp [passExponent, hmark, hplus]
      simp only [scanExponent, hplus] at h
      exact hpass.trans (passDigits_of_scanSigned h)
    by_cases hminus : Char.ofUInt8 s = '-'
    · have hpass : passExponent text = passDigits digits := by
        simp [passExponent, hmark, hminus]
      simp only [scanExponent, hminus] at h
      exact hpass.trans (passDigits_of_scanSigned h)
    -- without a sign the digits start at once
    · have hpass : passExponent text = passDigits (s :: digits) := by
        grind [passExponent]
      have hscan : scanSigned negative significand start false (s :: digits) = .ok (n, rest) := by
        simpa [scanExponent, hplus, hminus] using h
      exact hpass.trans (passDigits_of_scanSigned hscan)

theorem passExponent_of_none {text : Bytes} (hmark : exponentMark? text = none) :
    passExponent text = .ok text := by
  simp [passExponent, hmark]

theorem passFraction_of_scanFraction {negative : Bool} {significand : Nat} {start : Int}
    {text rest : Bytes} {n : Number}
    (h : scanFraction negative significand start text = .ok (n, rest)) :
    ∃ t, passDigits text = .ok t ∧ passExponent t = .ok rest := by
  simp only [scanFraction] at h
  by_cases hempty : (takeDigits text).1.isEmpty = true
  · simp [hempty] at h
  · simp only [hempty, Bool.false_eq_true, if_false] at h
    refine ⟨(takeDigits text).2, passDigits_eq_ok_iff.2 ⟨by simpa using hempty, rfl⟩, ?_⟩
    cases hmark : exponentMark? (takeDigits text).2 with
    | none =>
      simp only [hmark] at h
      rw [passExponent_of_none hmark, finishDouble_eq_ok h]
    | some digits =>
      simp only [hmark] at h
      exact passExponent_of_scanExponent hmark h

/-- A text without digits at its front is left as it is. -/
theorem takeDigits_of_empty {text : Bytes} (h : (takeDigits text).1 = []) :
    (takeDigits text).2 = text := by
  cases text with
  | nil => rfl
  | cons b text =>
    by_cases hb : (Char.ofUInt8 b).isDigit = true
    · simp [takeDigits, hb] at h
    · simp [takeDigits, hb]

theorem passWhole_of_digit {b : UInt8} {text : Bytes} (hb : (Char.ofUInt8 b).isDigit = true)
    (hzero : Char.ofUInt8 b = '0' → (takeDigits text).1 = []) :
    passWhole (b :: text) = .ok (takeDigits text).2 := by
  by_cases h : Char.ofUInt8 b = '0'
  · simp [passWhole, h, hzero h, takeDigits_of_empty (hzero h)]
  · simp only [passWhole, h, if_false]
    rw [passDigits_eq_ok_iff]
    simp [takeDigits, hb]

/-- A numeral that is read is passed up to the same place. -/
theorem passNumeral_of_scanNumeral {negative : Bool} {text rest : Bytes} {n : Number}
    (h : scanNumeral negative text = .ok (n, rest)) : passNumeral text = .ok ((), rest) := by
  rw [passNumeral_eq_ok_iff]
  cases text with
  | nil => cases h
  | cons b text =>
    by_cases hb : (Char.ofUInt8 b).isDigit = true
    · simp only [scanNumeral, hb, not_true_eq_false, if_false] at h
      -- a zero with a digit behind it is refused by both
      by_cases hzero : Char.ofUInt8 b = '0' ∧ ¬ (takeDigits text).1.isEmpty = true
      · simp [hzero] at h
      rw [if_neg hzero] at h
      refine ⟨(takeDigits text).2, ?_⟩
      rw [passWhole_of_digit hb (by simpa using hzero)]
      -- what follows the whole part decides between the three kinds of numerals
      generalize (takeDigits text).2 = behind at h
      cases hmark : exponentMark? behind with
      | some digits =>
        simp only [hmark] at h
        obtain ⟨e, rfl, he⟩ := exponentMark?_eq_some_iff.1 hmark
        refine ⟨e :: digits, rfl, ?_, passExponent_of_scanExponent hmark h⟩
        have hpoint : Char.ofUInt8 e ≠ '.' := by
          rintro hpoint
          simp [hpoint] at he
        simp [passFraction, hpoint]
      | none =>
        cases behind with
        | nil =>
          refine ⟨[], rfl, rfl, ?_⟩
          simp only [hmark] at h
          split at h
          · cases h
            rfl
          · rw [← finishDouble_eq_ok h]
            rfl
        | cons e behind =>
          simp only [hmark] at h
          by_cases hpoint : Char.ofUInt8 e = '.'
          -- a point: the exponent, if any, is read behind the fraction
          · rw [if_pos hpoint] at h
            obtain ⟨t, ht, hexponent⟩ := passFraction_of_scanFraction h
            exact ⟨t, rfl, by simpa [passFraction, hpoint] using ht, hexponent⟩
          -- neither point nor mark: the numeral ends here
          · rw [if_neg hpoint] at h
            refine ⟨e :: behind, rfl, by simp [passFraction, hpoint], ?_⟩
            rw [passExponent_of_none hmark]
            split at h
            · cases h
              rfl
            · rw [finishDouble_eq_ok h]
    · simp [scanNumeral, hb] at h

/-- A numeral that is read is one of the grammar. -/
theorem numeral_of_scanNumeral {negative : Bool} {text rest : Bytes} {n : Number}
    (h : scanNumeral negative text = .ok (n, rest)) : Numeral text rest :=
  passNumeral_eq_ok_iff_numeral.1 (passNumeral_of_scanNumeral h)

/-- A numeral starts with a digit. -/
theorem exists_digit_of_numeral {text rest : Bytes} (h : Numeral text rest) :
    ∃ b digits, text = b :: digits ∧ (Char.ofUInt8 b).isDigit = true := by
  obtain ⟨t, u, hwhole, -⟩ := h
  cases hwhole with
  | zero hb _ => exact ⟨_, _, rfl, by simp [hb]⟩
  | digits _ h =>
    obtain ⟨digits, hsome, hall, htext, -⟩ := h
    cases digits with
    | nil => exact absurd rfl hsome
    | cons b digits => exact ⟨b, digits ++ t, htext, hall b List.mem_cons_self⟩

/-- So does one that is read. -/
theorem isDigit_of_scanNumeral {negative : Bool} {text rest : Bytes} {n : Number}
    (h : scanNumeral negative text = .ok (n, rest)) :
    ∃ b digits, text = b :: digits ∧ (Char.ofUInt8 b).isDigit = true :=
  exists_digit_of_numeral (numeral_of_scanNumeral h)

end CredentialCeremony
