import CredentialCeremony.Proofs.Json.Grammar

set_option autoImplicit false

/-!
# Values apart from what follows them

What the grammar takes off the front of a text is a piece of the text, and it takes that piece
whatever follows. Only a numeral looks further: nothing behind it may go on with it (`Stops`).

Main statement: every value of the grammar is such a piece (`Value.spans`).
-/

namespace CredentialCeremony.Grammar

/-- The characters that may go on with a numeral. -/
def continues (c : Char) : Bool := c.isDigit || ['.', 'e', 'E'].contains c

/-- Nothing at the front of the text goes on with a numeral. -/
def Stops (text : Bytes) : Prop := ¬ Starts continues text

/-- What the relation takes off the text is a piece that it takes in front of any text of the given
kind. -/
def Spans (kind : Bytes → Prop) (R : Bytes → Bytes → Prop) (text rest : Bytes) : Prop :=
  ∃ piece, text = piece ++ rest ∧ ∀ more, kind more → R (piece ++ more) more

variable {first : Bool} {c : Char} {text rest : Bytes}

theorem stops_nil : Stops [] := not_starts_nil

theorem Stops.not_starts {kind : Char → Bool} (h : Stops text)
    (hkind : ∀ c, kind c = true → continues c = true) : ¬ Starts kind text := by
  rintro ⟨b, t, rfl, hb⟩
  exact h ⟨b, t, rfl, hkind _ hb⟩

theorem Stops.not_digit (h : Stops text) : ¬ Starts Char.isDigit text :=
  h.not_starts fun c hc => by simp [continues, hc]

theorem Stops.not_point (h : Stops text) : ¬ Starts (· == '.') text :=
  h.not_starts fun c hc => by simp_all [continues]

theorem Stops.not_exponent (h : Stops text) : ¬ Starts (['e', 'E'].contains ·) text :=
  h.not_starts fun c hc => by simp_all [continues]

/-- White space does not go on with a numeral. -/
theorem continues_of_isSpace {b : UInt8} (h : isSpace b = true) :
    continues (Char.ofUInt8 b) = false := by
  unfold isSpace at h
  split at h <;> simp_all [continues]

/-- Behind white space, a character that goes on with no numeral stops one. -/
theorem Next.stops (h : Next c text rest) (hc : continues c = false) : Stops text := by
  rintro ⟨b, t, rfl, hb⟩
  by_cases hspace : isSpace b = true
  · rw [continues_of_isSpace hspace] at hb
    cases hb
  · obtain ⟨b', hb', rfl⟩ := h
    rw [unspaced_cons_of_not_space (by simpa using hspace), List.cons.injEq] at hb'
    rw [hb'.1, hc] at hb
    cases hb

/-! ## Parts of values -/

/-- A text starts with the white space that is passed in front of any other. -/
theorem exists_spaces (text : Bytes) : ∃ spaces, text = spaces ++ unspaced text ∧
    ∀ more, unspaced (spaces ++ more) = unspaced more := by
  induction text with
  | nil => exact ⟨[], rfl, fun more => rfl⟩
  | cons b text ih =>
    by_cases hspace : isSpace b = true
    · obtain ⟨spaces, htext, hspaces⟩ := ih
      have hpassed (t : Bytes) : unspaced (b :: t) = unspaced t := by simp [unspaced, hspace]
      refine ⟨b :: spaces, ?_, fun more => ?_⟩
      · rw [hpassed, List.cons_append, ← htext]
      · rw [List.cons_append, hpassed, hspaces]
    · exact ⟨[], (unspaced_cons_of_not_space (by simpa using hspace)).symm, fun more => rfl⟩

/-- What comes next is no white space. -/
theorem isSpace_of_unspaced {b : UInt8} (h : unspaced text = b :: rest) : isSpace b = false := by
  have hagain := unspaced_unspaced text
  rw [h] at hagain
  cases hspace : isSpace b with
  | false => rfl
  | true =>
    have hpassed : unspaced (b :: rest) = unspaced rest := by simp [unspaced, hspace]
    have hlength := unspaced_length_le rest
    rw [← hpassed, hagain, List.length_cons] at hlength
    omega

/-- Behind white space, the front of a text stays the same whatever follows. -/
theorem exists_spaces_of_front {piece : Bytes} (h : unspaced text = piece ++ rest)
    (hpiece : piece ≠ []) :
    ∃ spaces, text = spaces ++ (piece ++ rest) ∧
      ∀ more, unspaced (spaces ++ (piece ++ more)) = piece ++ more := by
  obtain ⟨spaces, htext, hspaces⟩ := exists_spaces text
  cases piece with
  | nil => exact absurd rfl hpiece
  | cons b piece =>
    refine ⟨spaces, htext.trans (congrArg _ h), fun more => ?_⟩
    rw [hspaces]
    exact unspaced_cons_of_not_space (isSpace_of_unspaced h)

theorem Next.spans (h : Next c text rest) : Spans (fun _ => True) (Next c) text rest := by
  obtain ⟨b, hb, hc⟩ := h
  have hfront : unspaced text = [b] ++ rest := hb
  obtain ⟨spaces, htext, hspaces⟩ := exists_spaces_of_front hfront (by simp)
  refine ⟨spaces ++ [b], by rw [List.append_assoc]; exact htext, fun more _ => ⟨b, ?_, hc⟩⟩
  rw [List.append_assoc]
  exact hspaces more

theorem Lead.spans (h : Lead first text rest) : Spans (fun _ => True) (Lead first) text rest := by
  cases first with
  | true =>
    obtain rfl : rest = text := h
    exact ⟨[], rfl, fun more _ => rfl⟩
  | false => exact Next.spans h

theorem Escaped.spans (h : Escaped text rest) : Spans (fun _ => True) Escaped text rest := by
  induction h with
  | @close b rest hb => exact ⟨[b], rfl, fun more _ => .close hb⟩
  | @plain b text rest hq hs hc _ ih =>
    obtain ⟨piece, rfl, h⟩ := ih
    exact ⟨b :: piece, rfl, fun more hmore => .plain hq hs hc (h more hmore)⟩
  | @letter b e text rest hb he _ ih =>
    obtain ⟨piece, rfl, h⟩ := ih
    exact ⟨b :: e :: piece, rfl, fun more hmore => .letter hb he (h more hmore)⟩
  | @unit b e h₁ h₂ h₃ h₄ text rest hb he hdigits _ ih =>
    obtain ⟨piece, rfl, h⟩ := ih
    exact ⟨b :: e :: h₁ :: h₂ :: h₃ :: h₄ :: piece, rfl, fun more hmore =>
      .unit hb he hdigits (h more hmore)⟩

/-! ## Numerals -/

theorem Digits.spans (h : Digits text rest) :
    Spans (fun more => ¬ Starts Char.isDigit more) Digits text rest := by
  obtain ⟨digits, hsome, hall, rfl, -⟩ := h
  exact ⟨digits, rfl, fun more hmore => ⟨digits, hsome, hall, rfl, hmore⟩⟩

theorem Whole.spans (h : Whole text rest) :
    Spans (fun more => ¬ Starts Char.isDigit more) Whole text rest := by
  cases h with
  | @zero b _ hb _ => exact ⟨[b], rfl, fun more hmore => .zero hb hmore⟩
  | @digits b text _ hb h =>
    obtain ⟨piece, htext, hspans⟩ := h.spans
    refine ⟨piece, htext, fun more hmore => ?_⟩
    have hdigits := hspans more hmore
    cases piece with
    | nil =>
      have hlength := h.length_lt
      rw [htext, List.nil_append] at hlength
      exact absurd hlength (Nat.lt_irrefl _)
    | cons a piece =>
      obtain ⟨rfl, -⟩ := List.cons.inj htext
      exact .digits hb hdigits

/-- A fraction is not taken for digits of the whole part. -/
theorem Fraction.spans (h : Fraction text rest) :
    Spans (fun more => ¬ Starts Char.isDigit more ∧ ¬ Starts (· == '.') more)
      (fun text rest => Fraction text rest ∧ ¬ Starts Char.isDigit text) text rest := by
  cases h with
  | absent _ => exact ⟨[], rfl, fun more hmore => ⟨.absent hmore.2, hmore.1⟩⟩
  | @present b text _ hb h =>
    obtain ⟨piece, rfl, hspans⟩ := h.spans
    refine ⟨b :: piece, rfl, fun more hmore => ⟨.present hb (hspans more hmore.1), ?_⟩⟩
    simp [hb]

/-- An exponent is taken neither for digits nor for a fraction. -/
theorem Exponent.spans (h : Exponent text rest) :
    Spans Stops (fun text rest => Exponent text rest ∧ ¬ Starts Char.isDigit text ∧
      ¬ Starts (· == '.') text) text rest := by
  have hmark {b : UInt8} (t : Bytes) (hb : Char.ofUInt8 b ∈ ['e', 'E']) :
      ¬ Starts Char.isDigit (b :: t) ∧ ¬ Starts (· == '.') (b :: t) := by
    simp only [List.mem_cons, List.not_mem_nil, or_false] at hb
    rcases hb with hb | hb <;> simp [hb]
  cases h with
  | absent _ =>
    exact ⟨[], rfl, fun more hmore =>
      ⟨.absent hmore.not_exponent, hmore.not_digit, hmore.not_point⟩⟩
  | @bare b text _ hb h =>
    obtain ⟨piece, rfl, hspans⟩ := h.spans
    exact ⟨b :: piece, rfl, fun more hmore =>
      ⟨.bare hb (hspans more hmore.not_digit), hmark _ hb⟩⟩
  | @signed b s text _ hb hs h =>
    obtain ⟨piece, rfl, hspans⟩ := h.spans
    exact ⟨b :: s :: piece, rfl, fun more hmore =>
      ⟨.signed hb hs (hspans more hmore.not_digit), hmark _ hb⟩⟩

theorem Numeral.spans (h : Numeral text rest) : Spans Stops Numeral text rest := by
  obtain ⟨t, u, hwhole, hfraction, hexponent⟩ := h
  obtain ⟨whole, rfl, htakesWhole⟩ := hwhole.spans
  obtain ⟨fraction, rfl, htakesFraction⟩ := hfraction.spans
  obtain ⟨exponent, rfl, htakesExponent⟩ := hexponent.spans
  refine ⟨whole ++ (fraction ++ exponent), by simp only [List.append_assoc], fun more hmore => ?_⟩
  -- each part is told from those in front of it by its first character
  obtain ⟨hexponent, hdigit, hpoint⟩ := htakesExponent more hmore
  obtain ⟨hfraction, hdigit⟩ := htakesFraction _ ⟨hdigit, hpoint⟩
  simp only [List.append_assoc]
  exact ⟨_, _, htakesWhole _ hdigit, hfraction, hexponent⟩

/-! ## Values -/

theorem Scalar.spans (h : Scalar text rest) : Spans Stops Scalar text rest := by
  cases h with
  | word hword h =>
    obtain ⟨bytes, hchars, rfl⟩ := h
    exact ⟨bytes, rfl, fun more _ => .word hword ⟨bytes, hchars, rfl⟩⟩
  | positive h =>
    obtain ⟨piece, rfl, hspans⟩ := h.spans
    exact ⟨piece, rfl, fun more hmore => .positive (hspans more hmore)⟩
  | @negative b text _ hb h =>
    obtain ⟨piece, rfl, hspans⟩ := h.spans
    exact ⟨b :: piece, rfl, fun more hmore => .negative hb (hspans more hmore)⟩
  | @string b text _ hb h =>
    obtain ⟨piece, rfl, hspans⟩ := h.spans
    exact ⟨b :: piece, rfl, fun more _ => .string hb (hspans more trivial)⟩

/-- A value stops in front of the rest of an array. -/
theorem Elements.stops (h : Elements false text rest) : Stops text := by
  cases h with
  | close h => exact h.stops rfl
  | item hlead _ _ => exact Next.stops hlead rfl

/-- A value stops in front of the rest of an object. -/
theorem Members.stops (h : Members false text rest) : Stops text := by
  cases h with
  | close h => exact h.stops rfl
  | member hlead _ _ _ _ _ => exact Next.stops hlead rfl

mutual

/-- A value is a piece of the text. -/
theorem Value.spans : {text rest : Bytes} → Value text rest → Spans Stops Value text rest
  | text, rest, .scalar h => by
    obtain ⟨piece, htext, hscalar⟩ := h.spans
    have hpiece : piece ≠ [] := by
      rintro rfl
      have hlength := h.length_lt
      rw [htext, List.nil_append] at hlength
      exact absurd hlength (Nat.lt_irrefl _)
    obtain ⟨spaces, rfl, hspaces⟩ := exists_spaces_of_front htext hpiece
    refine ⟨spaces ++ piece, (List.append_assoc ..).symm, fun more hmore => .scalar ?_⟩
    rw [List.append_assoc, hspaces]
    exact hscalar more hmore
  | _, _, .array hopen h => by
    obtain ⟨opening, rfl, hopening⟩ := hopen.spans
    obtain ⟨items, rfl, hitems⟩ := Elements.spans h
    refine ⟨opening ++ items, (List.append_assoc ..).symm, fun more hmore => ?_⟩
    rw [List.append_assoc]
    exact .array (hopening _ trivial) (hitems more hmore)
  | _, _, .object hopen h => by
    obtain ⟨opening, rfl, hopening⟩ := hopen.spans
    obtain ⟨members, rfl, hmembers⟩ := Members.spans h
    refine ⟨opening ++ members, (List.append_assoc ..).symm, fun more hmore => ?_⟩
    rw [List.append_assoc]
    exact .object (hopening _ trivial) (hmembers more hmore)

theorem Elements.spans : {first : Bool} → {text rest : Bytes} → Elements first text rest →
    Spans Stops (Elements first) text rest
  | _, _, _, .close h => by
    obtain ⟨closing, rfl, hclosing⟩ := h.spans
    exact ⟨closing, rfl, fun more _ => .close (hclosing more trivial)⟩
  | _, _, _, .item hlead hitem h => by
    obtain ⟨lead, rfl, htakesLead⟩ := hlead.spans
    obtain ⟨item, rfl, htakesItem⟩ := Value.spans hitem
    obtain ⟨others, rfl, hothers⟩ := Elements.spans h
    refine ⟨lead ++ (item ++ others), by simp only [List.append_assoc], fun more hmore => ?_⟩
    -- the item stops in front of what stands behind it
    have hbehind := hothers more hmore
    simp only [List.append_assoc]
    exact .item (htakesLead _ trivial) (htakesItem _ hbehind.stops) hbehind

theorem Members.spans : {first : Bool} → {text rest : Bytes} → Members first text rest →
    Spans Stops (Members first) text rest
  | _, _, _, .close h => by
    obtain ⟨closing, rfl, hclosing⟩ := h.spans
    exact ⟨closing, rfl, fun more _ => .close (hclosing more trivial)⟩
  | _, _, _, .member hlead hmark hname hcolon hitem h => by
    obtain ⟨lead, rfl, htakesLead⟩ := hlead.spans
    obtain ⟨mark, rfl, htakesMark⟩ := hmark.spans
    obtain ⟨name, rfl, htakesName⟩ := hname.spans
    obtain ⟨colon, rfl, htakesColon⟩ := hcolon.spans
    obtain ⟨item, rfl, htakesItem⟩ := Value.spans hitem
    obtain ⟨others, rfl, hothers⟩ := Members.spans h
    refine ⟨lead ++ (mark ++ (name ++ (colon ++ (item ++ others)))),
      by simp only [List.append_assoc], fun more hmore => ?_⟩
    have hbehind := hothers more hmore
    simp only [List.append_assoc]
    exact .member (htakesLead _ trivial) (htakesMark _ trivial) (htakesName _ trivial)
      (htakesColon _ trivial) (htakesItem _ hbehind.stops) hbehind

end

/-- By itself, the text of a value is one value. -/
theorem Value.exists_piece (h : Value text rest) :
    ∃ value, text = value ++ rest ∧ Value value [] := by
  obtain ⟨value, htext, hvalue⟩ := h.spans
  have hwhole := hvalue [] stops_nil
  rw [List.append_nil] at hwhole
  exact ⟨value, htext, hwhole⟩

end CredentialCeremony.Grammar
