import CredentialCeremony.Reading.Reader
import CredentialCeremony.Text.Hexadecimal

set_option autoImplicit false

/-!
# The grammar of JSON

What a text has to look like to be a JSON document, over the bytes of the text and apart from any
reader. A relation `R text rest` says that something of its kind stands at the front of the text and
`rest` behind it. A numeral goes on for as long as the characters behind it could belong to it, so
that a text has one rest at most.

Main statement: white space in front of a value is no part of it (`value_unspaced_iff`).
-/

namespace CredentialCeremony

/-- The text behind the white space at its front. -/
def unspaced (text : Bytes) : Bytes := text.dropWhile isSpace

@[simp] theorem unspaced_unspaced (text : Bytes) : unspaced (unspaced text) = unspaced text := by
  induction text with
  | nil => rfl
  | cons b text ih =>
    by_cases h : isSpace b = true
    · simpa [unspaced, h] using ih
    · simp [unspaced, h]

/-- A text that starts with no white space is behind it. -/
theorem unspaced_cons_of_not_space {b : UInt8} {text : Bytes} (h : isSpace b = false) :
    unspaced (b :: text) = b :: text := by
  simp [unspaced, h]

/-- What is left behind white space is no longer than the text. -/
theorem unspaced_length_le (text : Bytes) : (unspaced text).length ≤ text.length :=
  (List.dropWhile_sublist _).length_le

theorem unspaced_eq_nil_iff {text : Bytes} :
    unspaced text = [] ↔ ∀ b ∈ text, isSpace b = true := by
  induction text with
  | nil => simp [unspaced]
  | cons b text ih =>
    by_cases h : isSpace b = true
    · rw [List.forall_mem_cons, and_iff_right h, ← ih]
      simp [unspaced, h]
    · simp [unspaced, h]

namespace Grammar

/-- Behind white space stands the character, and `rest` behind it. -/
def Next (c : Char) (text rest : Bytes) : Prop :=
  ∃ b, unspaced text = b :: rest ∧ Char.ofUInt8 b = c

/-- Where the next part of an array or object starts: the first one at once, any other behind a
comma. -/
def Lead (first : Bool) (text start : Bytes) : Prop :=
  if first then start = text else Next ',' text start

/-- The characters of a word. -/
def Word (word : String) (text rest : Bytes) : Prop :=
  ∃ bytes : Bytes, bytes.map Char.ofUInt8 = word.toList ∧ text = bytes ++ rest

/-- A string behind its opening mark, up to its closing mark. -/
inductive Escaped : Bytes → Bytes → Prop where
  | close {b : UInt8} {rest : Bytes} : Char.ofUInt8 b = '"' → Escaped (b :: rest) rest
  | plain {b : UInt8} {text rest : Bytes} : Char.ofUInt8 b ≠ '"' → Char.ofUInt8 b ≠ '\\' →
      ¬ b < 0x20 → Escaped text rest → Escaped (b :: text) rest
  | letter {b e : UInt8} {text rest : Bytes} : Char.ofUInt8 b = '\\' →
      Char.ofUInt8 e ∈ ['"', '\\', '/', 'b', 'f', 'n', 'r', 't'] → Escaped text rest →
      Escaped (b :: e :: text) rest
  | unit {b e h₁ h₂ h₃ h₄ : UInt8} {text rest : Bytes} : Char.ofUInt8 b = '\\' →
      Char.ofUInt8 e = 'u' →
      (∀ h ∈ [h₁, h₂, h₃, h₄], (Text.hexValue? (Char.ofUInt8 h)).isSome = true) →
      Escaped text rest → Escaped (b :: e :: h₁ :: h₂ :: h₃ :: h₄ :: text) rest

/-- The text starts with a character of the given kind. -/
def Starts (kind : Char → Bool) (text : Bytes) : Prop :=
  ∃ b rest, text = b :: rest ∧ kind (Char.ofUInt8 b) = true

/-- One digit or more, as many as stand there. -/
def Digits (text rest : Bytes) : Prop :=
  ∃ digits : Bytes, digits ≠ [] ∧ (∀ b ∈ digits, (Char.ofUInt8 b).isDigit = true) ∧
    text = digits ++ rest ∧ ¬ Starts Char.isDigit rest

/-- The whole part of a numeral: a zero alone, or digits of which the first is no zero. -/
inductive Whole : Bytes → Bytes → Prop where
  | zero {b : UInt8} {rest : Bytes} : Char.ofUInt8 b = '0' → ¬ Starts Char.isDigit rest →
      Whole (b :: rest) rest
  | digits {b : UInt8} {text rest : Bytes} : Char.ofUInt8 b ≠ '0' → Digits (b :: text) rest →
      Whole (b :: text) rest

/-- The fraction of a numeral, if it has one. -/
inductive Fraction : Bytes → Bytes → Prop where
  | absent {rest : Bytes} : ¬ Starts (· == '.') rest → Fraction rest rest
  | present {b : UInt8} {text rest : Bytes} : Char.ofUInt8 b = '.' → Digits text rest →
      Fraction (b :: text) rest

/-- The exponent of a numeral, if it has one. -/
inductive Exponent : Bytes → Bytes → Prop where
  | absent {rest : Bytes} : ¬ Starts (['e', 'E'].contains ·) rest → Exponent rest rest
  | bare {b : UInt8} {text rest : Bytes} : Char.ofUInt8 b ∈ ['e', 'E'] → Digits text rest →
      Exponent (b :: text) rest
  | signed {b s : UInt8} {text rest : Bytes} : Char.ofUInt8 b ∈ ['e', 'E'] →
      Char.ofUInt8 s ∈ ['+', '-'] → Digits text rest → Exponent (b :: s :: text) rest

/-- A numeral behind its sign. -/
def Numeral (text rest : Bytes) : Prop :=
  ∃ t u, Whole text t ∧ Fraction t u ∧ Exponent u rest

/-- A value that holds no other value. -/
inductive Scalar : Bytes → Bytes → Prop where
  | word {word : String} {text rest : Bytes} : word ∈ ["null", "true", "false"] →
      Word word text rest → Scalar text rest
  | positive {text rest : Bytes} : Numeral text rest → Scalar text rest
  | negative {b : UInt8} {text rest : Bytes} : Char.ofUInt8 b = '-' → Numeral text rest →
      Scalar (b :: text) rest
  | string {b : UInt8} {text rest : Bytes} : Char.ofUInt8 b = '"' → Escaped text rest →
      Scalar (b :: text) rest

mutual

/-- A value, in front of which white space may stand. -/
inductive Value : Bytes → Bytes → Prop where
  | scalar {text rest : Bytes} : Scalar (unspaced text) rest → Value text rest
  | array {text inner rest : Bytes} : Next '[' text inner → Elements true inner rest →
      Value text rest
  | object {text inner rest : Bytes} : Next '\x7b' text inner → Members true inner rest →
      Value text rest

/-- The elements of an array up to its closing bracket; `first` tells that none has come yet. -/
inductive Elements : Bool → Bytes → Bytes → Prop where
  | close {first : Bool} {text rest : Bytes} : Next ']' text rest → Elements first text rest
  | item {first : Bool} {text item behind rest : Bytes} : Lead first text item →
      Value item behind → Elements false behind rest → Elements first text rest

/-- The members of an object up to its closing brace; `first` tells that none has come yet. -/
inductive Members : Bool → Bytes → Bytes → Prop where
  | close {first : Bool} {text rest : Bytes} : Next '\x7d' text rest → Members first text rest
  | member {first : Bool} {text start name colon item behind rest : Bytes} :
      Lead first text start → Next '"' start name → Escaped name colon → Next ':' colon item →
      Value item behind → Members false behind rest → Members first text rest

end

/-- A document: one value, behind which only white space stands. -/
def Document (text : Bytes) : Prop := ∃ rest, Value text rest ∧ ∀ b ∈ rest, isSpace b = true

@[simp] theorem next_unspaced_iff {c : Char} {text rest : Bytes} :
    Next c (unspaced text) rest ↔ Next c text rest := by
  simp [Next]

/-- The next character is determined, and so is what stands behind it. -/
theorem Next.unique {c d : Char} {text r₁ r₂ : Bytes} (h₁ : Next c text r₁)
    (h₂ : Next d text r₂) : c = d ∧ r₁ = r₂ := by
  obtain ⟨a, ha, rfl⟩ := h₁
  obtain ⟨b, hb, rfl⟩ := h₂
  rw [ha, List.cons.injEq] at hb
  obtain ⟨rfl, rfl⟩ := hb
  exact ⟨rfl, rfl⟩

/-- Behind the next character there is less text. -/
theorem Next.length_lt {c : Char} {text rest : Bytes} (h : Next c text rest) :
    rest.length < text.length := by
  obtain ⟨b, hb, -⟩ := h
  have hle := unspaced_length_le text
  rw [hb, List.length_cons] at hle
  omega

theorem Next.suffix {c : Char} {text rest : Bytes} (h : Next c text rest) : rest <:+ text := by
  obtain ⟨b, hb, -⟩ := h
  have hunspaced : unspaced text <:+ text := List.dropWhile_suffix _
  rw [hb] at hunspaced
  exact (List.suffix_cons b rest).trans hunspaced

/-- The place where a part starts is no further back than its lead. -/
theorem Lead.length_le {first : Bool} {text start : Bytes} (h : Lead first text start) :
    start.length ≤ text.length := by
  cases first with
  | true => exact Nat.le_of_eq (congrArg List.length h)
  | false => exact Nat.le_of_lt (Next.length_lt h)

theorem Lead.suffix {first : Bool} {text start : Bytes} (h : Lead first text start) :
    start <:+ text := by
  cases first with
  | true =>
    obtain rfl : start = text := h
    exact List.suffix_refl start
  | false => exact Next.suffix h

/-- A part has one place to start at. -/
theorem Lead.unique {first : Bool} {text s₁ s₂ : Bytes} (h₁ : Lead first text s₁)
    (h₂ : Lead first text s₂) : s₁ = s₂ := by
  cases first with
  | true => exact Eq.trans h₁ (Eq.symm h₂)
  | false => exact (Next.unique h₁ h₂).2

@[simp] theorem not_starts_nil {kind : Char → Bool} : ¬ Starts kind [] := by
  simp [Starts]

@[simp] theorem starts_cons_iff {kind : Char → Bool} {b : UInt8} {rest : Bytes} :
    Starts kind (b :: rest) ↔ kind (Char.ofUInt8 b) = true := by
  simp [Starts]

theorem Digits.length_lt {text rest : Bytes} (h : Digits text rest) :
    rest.length < text.length := by
  obtain ⟨digits, hsome, -, rfl, -⟩ := h
  have hlength := List.length_pos_iff.2 hsome
  rw [List.length_append]
  omega

theorem Whole.length_lt {text rest : Bytes} (h : Whole text rest) :
    rest.length < text.length := by
  cases h with
  | zero => simp
  | digits _ h => exact h.length_lt

theorem Fraction.length_le {text rest : Bytes} (h : Fraction text rest) :
    rest.length ≤ text.length := by
  cases h with
  | absent => exact Nat.le_refl _
  | present _ h => exact Nat.le_of_lt (Nat.lt_succ_of_lt h.length_lt)

theorem Exponent.length_le {text rest : Bytes} (h : Exponent text rest) :
    rest.length ≤ text.length := by
  cases h with
  | absent => exact Nat.le_refl _
  | bare _ h => exact Nat.le_of_lt (Nat.lt_succ_of_lt h.length_lt)
  | signed _ _ h => exact Nat.le_of_lt (Nat.lt_succ_of_lt (Nat.lt_succ_of_lt h.length_lt))

/-- Behind a numeral there is less text. -/
theorem Numeral.length_lt {text rest : Bytes} (h : Numeral text rest) :
    rest.length < text.length := by
  obtain ⟨t, u, hwhole, hfraction, hexponent⟩ := h
  exact Nat.lt_of_le_of_lt (Nat.le_trans hexponent.length_le hfraction.length_le)
    hwhole.length_lt

theorem Escaped.length_lt {text rest : Bytes} (h : Escaped text rest) :
    rest.length < text.length := by
  induction h <;> simp only [List.length_cons] <;> omega

theorem Word.length_lt {word : String} {text rest : Bytes} (h : Word word text rest)
    (hword : word ∈ ["null", "true", "false"]) : rest.length < text.length := by
  obtain ⟨bytes, hchars, rfl⟩ := h
  have hsome : bytes.length ≠ 0 := by
    intro hnil
    rw [List.length_eq_zero_iff] at hnil
    subst hnil
    revert hchars
    revert word
    decide
  rw [List.length_append]
  omega

theorem Scalar.length_lt {text rest : Bytes} (h : Scalar text rest) :
    rest.length < text.length := by
  cases h with
  | word hword h => exact h.length_lt hword
  | positive h => exact h.length_lt
  | negative _ h => exact Nat.lt_succ_of_lt h.length_lt
  | string _ h => exact Nat.lt_succ_of_lt h.length_lt

mutual

/-- Behind a value there is less text. -/
theorem Value.length_lt : {text rest : Bytes} → Value text rest → rest.length < text.length
  | text, _, .scalar h => Nat.lt_of_lt_of_le h.length_lt (unspaced_length_le text)
  | _, _, .array hopen h => Nat.lt_trans (Elements.length_lt h) hopen.length_lt
  | _, _, .object hopen h => Nat.lt_trans (Members.length_lt h) hopen.length_lt

theorem Elements.length_lt : {first : Bool} → {text rest : Bytes} → Elements first text rest →
    rest.length < text.length
  | _, _, _, .close h => h.length_lt
  | _, _, _, .item hlead hitem h => by
    have hstart := hlead.length_le
    have hbehind := Value.length_lt hitem
    have hrest := Elements.length_lt h
    omega

theorem Members.length_lt : {first : Bool} → {text rest : Bytes} → Members first text rest →
    rest.length < text.length
  | _, _, _, .close h => h.length_lt
  | _, _, _, .member hlead hmark hname hcolon hitem h => by
    have hstart := hlead.length_le
    have hquoted := hmark.length_lt
    have hcolon' := hname.length_lt
    have hvalue := hcolon.length_lt
    have hbehind := Value.length_lt hitem
    have hrest := Members.length_lt h
    omega

end

/-- White space in front of a value is no part of it. -/
theorem value_unspaced_iff {text rest : Bytes} : Value (unspaced text) rest ↔ Value text rest := by
  constructor
  · intro h
    cases h with
    | scalar h => exact .scalar (by simpa using h)
    | array hopen h => exact .array (next_unspaced_iff.1 hopen) h
    | object hopen h => exact .object (next_unspaced_iff.1 hopen) h
  · intro h
    cases h with
    | scalar h => exact .scalar (by simpa using h)
    | array hopen h => exact .array (next_unspaced_iff.2 hopen) h
    | object hopen h => exact .object (next_unspaced_iff.2 hopen) h

end Grammar
end CredentialCeremony
