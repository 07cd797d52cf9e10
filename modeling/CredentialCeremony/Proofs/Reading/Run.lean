import CredentialCeremony.Proofs.Json.Grammar
import CredentialCeremony.Schema.Direct

set_option autoImplicit false

/-!
# Successful runs of readers

When a reader succeeds, and where it then stands. A computation made of two succeeds if both do, in
turn (`bind_eq_ok_iff`); each reader of a single character succeeds if that character comes next.
With these laws a reader is never opened twice.
-/

namespace CredentialCeremony

section Laws

variable {ε σ α β : Type}

theorem bind_of_ok {x : EStateM ε σ α} {f : α → EStateM ε σ β} {s s₁ : σ} {a : α}
    (h : x s = .ok a s₁) : (x >>= f) s = f a s₁ := by
  simp [bind, EStateM.bind, h]

theorem bind_of_error {x : EStateM ε σ α} {f : α → EStateM ε σ β} {s s₁ : σ} {e : ε}
    (h : x s = .error e s₁) : (x >>= f) s = .error e s₁ := by
  simp [bind, EStateM.bind, h]

theorem bind_congr_of_eq {x y : EStateM ε σ α} {f : α → EStateM ε σ β} {s t : σ} (h : x s = y t) :
    (x >>= f) s = (y >>= f) t := by
  simp [bind, EStateM.bind, h]

/-- Two computations in turn succeed if the first does and the second does behind it. -/
theorem bind_eq_ok_iff {x : EStateM ε σ α} {f : α → EStateM ε σ β} {s s' : σ} {b : β} :
    (x >>= f) s = .ok b s' ↔ ∃ a s₁, x s = .ok a s₁ ∧ f a s₁ = .ok b s' := by
  cases h : x s with
  | ok a s₁ =>
    rw [bind_of_ok h]
    constructor
    · intro hf
      exact ⟨a, s₁, rfl, hf⟩
    · rintro ⟨_, _, hx, hf⟩
      cases hx
      exact hf
  | error e s₁ => simp [bind_of_error h]

/-- Two computations in turn fail if the first does, or the second behind it. -/
theorem bind_eq_error_iff {x : EStateM ε σ α} {f : α → EStateM ε σ β} {s s' : σ} {e : ε} :
    (x >>= f) s = .error e s' ↔
      x s = .error e s' ∨ ∃ a s₁, x s = .ok a s₁ ∧ f a s₁ = .error e s' := by
  cases h : x s with
  | ok a s₁ =>
    rw [bind_of_ok h]
    constructor
    · intro hf
      exact .inr ⟨a, s₁, rfl, hf⟩
    · rintro (hx | ⟨_, _, hx, hf⟩)
      · cases hx
      · cases hx
        exact hf
  | error e s₁ => simp [bind_of_error h]

theorem pure_eq_ok_iff {s s' : σ} {a b : α} :
    (pure a : EStateM ε σ α) s = .ok b s' ↔ a = b ∧ s = s' := by
  simp [pure, EStateM.pure]

theorem throw_ne_ok {s s' : σ} {e : ε} {b : β} :
    (throw e : EStateM ε σ β) s ≠ .ok b s' := by
  intro h
  cases h

theorem Reading.value?_eq_some_iff {r : Reading α} {a : α} :
    r.value? = some a ↔ r.outcome = .ok a := by
  cases h : r.outcome <;> simp [Reading.value?, h, Except.toOption]

end Laws

namespace Reader

open Grammar

variable {α : Type} {c c' : Cursor}

theorem fail_ne_ok {a : α} : (fail : Reader α) c ≠ .ok a c' := throw_ne_ok

theorem peek_apply (c : Cursor) :
    peek c = .ok ((unspaced c.rest).head?.map Char.ofUInt8) ⟨unspaced c.rest, c.warnings⟩ := rfl

/-- What follows a look at the next character, when there is one. -/
theorem peek_bind_of_next {f : Option Char → Reader α} {ch : Char} {rest : Bytes}
    (h : Next ch c.rest rest) :
    (peek >>= f) c = f (some ch) ⟨unspaced c.rest, c.warnings⟩ := by
  obtain ⟨b, hb, rfl⟩ := h
  rw [bind_of_ok (peek_apply c), hb]
  rfl

/-- What follows a look at the next character, when none is left. -/
theorem peek_bind_of_nil {f : Option Char → Reader α} (h : unspaced c.rest = []) :
    (peek >>= f) c = f none ⟨[], c.warnings⟩ := by
  rw [bind_of_ok (peek_apply c), h]
  rfl

/-- Either nothing is left behind white space, or some character comes next. -/
theorem nil_or_next (text : Bytes) : unspaced text = [] ∨ ∃ ch rest, Next ch text rest := by
  cases h : unspaced text with
  | nil => exact .inl rfl
  | cons b rest => exact .inr ⟨Char.ofUInt8 b, rest, b, h, rfl⟩

/-- Behind a look, one character on is behind the character that was seen. -/
theorem advance_of_next {ch : Char} {text rest : Bytes} {warnings : List TimeoutWarning}
    (h : Next ch text rest) :
    advance ⟨unspaced text, warnings⟩ = .ok () ⟨rest, warnings⟩ := by
  obtain ⟨b, hb, -⟩ := h
  rw [hb]
  rfl

theorem scan_eq_ok_iff {scanner : Bytes → Except Bytes (α × Bytes)} {a : α} :
    scan scanner c = .ok a c' ↔
      scanner c.rest = .ok (a, c'.rest) ∧ c'.warnings = c.warnings := by
  obtain ⟨rest', warnings'⟩ := c'
  rw [scan]
  cases h : scanner c.rest with
  | ok p => obtain ⟨b, rest⟩ := p; simp only [EStateM.Result.ok.injEq, Except.ok.injEq]; grind
  | error rest => simp

theorem extract_eq_ok_iff {x : Extractor α} {a : α} :
    extract x c = .ok a c' ↔ x c.warnings = .ok a c'.warnings ∧ c'.rest = c.rest := by
  obtain ⟨rest', warnings'⟩ := c'
  rw [extract]
  cases h : x c.warnings with
  | ok b warnings => simp only [EStateM.Result.ok.injEq, Cursor.mk.injEq]; grind
  | error e warnings => simp

theorem warn_eq_ok_iff {w : TimeoutWarning} {u : Unit} :
    warn w c = .ok u c' ↔ c' = ⟨c.rest, c.warnings ++ [w]⟩ := by
  rw [warn]
  constructor
  · intro h
    cases h
    rfl
  · rintro rfl
    rfl

/-- Nothing comes next when only white space is left. -/
theorem not_next_of_nil {ch : Char} {text rest : Bytes} (h : unspaced text = []) :
    ¬ Next ch text rest := by
  rintro ⟨b, hb, -⟩
  simp [h] at hb

/-- A choice by the next character that succeeds for one character only. -/
theorem peek_bind_eq_ok_iff (ch : Char) {f : Option Char → Reader α} {a : α}
    (hno : ∀ o s, o ≠ some ch → f o s ≠ .ok a c') :
    (peek >>= f) c = .ok a c' ↔
      ∃ rest, Next ch c.rest rest ∧ f (some ch) ⟨unspaced c.rest, c.warnings⟩ = .ok a c' := by
  rcases nil_or_next c.rest with hnil | ⟨d, rest, hnext⟩
  -- the end of the text counts as a wrong character
  · rw [peek_bind_of_nil hnil]
    apply iff_of_false (hno _ _ (by simp))
    rintro ⟨rest, hnext, -⟩
    exact not_next_of_nil hnil hnext
  · rw [peek_bind_of_next hnext]
    constructor
    · intro h
      by_cases hd : d = ch
      · subst hd
        exact ⟨rest, hnext, h⟩
      · exact absurd h (hno _ _ fun hsome => hd (Option.some.inj hsome))
    · rintro ⟨rest', hnext', h⟩
      obtain ⟨rfl, -⟩ := hnext.unique hnext'
      exact h

/-- A reader behind one given character succeeds if the character comes next and it succeeds behind
that. -/
theorem opening_eq_ok_iff (ch : Char) {f : Option Char → Reader α} (body : Reader α) {a : α}
    (hyes : f (some ch) = do advance; body) (hno : ∀ o s, o ≠ some ch → f o s ≠ .ok a c') :
    (peek >>= f) c = .ok a c' ↔
      ∃ rest, Next ch c.rest rest ∧ body ⟨rest, c.warnings⟩ = .ok a c' := by
  rw [peek_bind_eq_ok_iff ch hno, hyes]
  refine exists_congr fun rest => and_congr_right fun hnext => ?_
  rw [bind_of_ok (advance_of_next hnext)]

/-- A reader of one given character succeeds if the character comes next. -/
theorem expect_eq_ok_iff {ch : Char} {f : Option Char → Reader Unit} {u : Unit}
    (hyes : f (some ch) = advance) (hno : ∀ o s, o ≠ some ch → f o s ≠ .ok u c') :
    (peek >>= f) c = .ok u c' ↔ ∃ rest, Next ch c.rest rest ∧ c' = ⟨rest, c.warnings⟩ := by
  rw [opening_eq_ok_iff ch (pure ()) hyes hno]
  simp only [pure_eq_ok_iff, true_and, eq_comm]

theorem colon_eq_ok_iff {u : Unit} :
    colon c = .ok u c' ↔ ∃ rest, Next ':' c.rest rest ∧ c' = ⟨rest, c.warnings⟩ := by
  apply expect_eq_ok_iff rfl
  intro o s ho
  split
  · exact absurd rfl ho
  · exact fail_ne_ok

theorem closeObject_eq_ok_iff {u : Unit} :
    closeObject c = .ok u c' ↔ ∃ rest, Next '\x7d' c.rest rest ∧ c' = ⟨rest, c.warnings⟩ := by
  apply expect_eq_ok_iff rfl
  intro o s ho
  split
  · exact absurd rfl ho
  · exact fail_ne_ok

theorem closeArray_eq_ok_iff {u : Unit} :
    closeArray c = .ok u c' ↔ ∃ rest, Next ']' c.rest rest ∧ c' = ⟨rest, c.warnings⟩ := by
  apply expect_eq_ok_iff rfl
  intro o s ho
  split
  · exact absurd rfl ho
  -- a comma is passed before it is refused
  · intro h
    obtain ⟨_, _, _, h⟩ := bind_eq_ok_iff.1 h
    exact fail_ne_ok h
  · exact fail_ne_ok

theorem finish_eq_ok_iff {u : Unit} :
    finish c = .ok u c' ↔ unspaced c.rest = [] ∧ c' = ⟨[], c.warnings⟩ := by
  rw [finish]
  rcases nil_or_next c.rest with hnil | ⟨ch, rest, hnext⟩
  · rw [peek_bind_of_nil hnil, pure_eq_ok_iff]
    simp [hnil, eq_comm]
  · rw [peek_bind_of_next hnext]
    apply iff_of_false fail_ne_ok
    rintro ⟨hnil, -⟩
    exact not_next_of_nil hnil hnext

/-- A text is read if the reader succeeds on it and only white space stands behind. -/
theorem run_outcome_eq_ok_iff {r : Reader α} {text : Bytes} {a : α} :
    (run r text).outcome = .ok a ↔ ∃ c, r ⟨text, []⟩ = .ok a c ∧ unspaced c.rest = [] := by
  -- the outcome is that of one computation, from the first character to the end
  have hrun : (run r text).outcome = .ok a ↔
      ∃ c, (do let a ← r; finish; return a : Reader α) ⟨text, []⟩ = .ok a c := by
    rw [run]
    split
    · simp_all
    · simp_all
  rw [hrun]
  simp only [bind_eq_ok_iff, finish_eq_ok_iff, pure_eq_ok_iff]
  grind

/-- What a reader gives for a text at the end of which it stands. -/
theorem run_eq_of_ok {r : Reader α} {text : Bytes} {a : α} {c : Cursor}
    (h : r ⟨text, []⟩ = .ok a c) (hend : unspaced c.rest = []) : run r text = ⟨.ok a, c.warnings⟩ := by
  have hfinish : finish c = .ok () ⟨[], c.warnings⟩ := finish_eq_ok_iff.2 ⟨hend, rfl⟩
  have hwhole : (do let a ← r; finish; return a : Reader α) ⟨text, []⟩ = .ok a ⟨[], c.warnings⟩ := by
    rw [bind_of_ok h, bind_of_ok hfinish]
    rfl
  rw [run]
  rw [hwhole]

theorem run_outcome_of_error {r : Reader α} {text : Bytes} {e : ReadError} {c : Cursor}
    (h : r ⟨text, []⟩ = .error e c) : (run r text).outcome = .error e := by
  have hwhole : (do let a ← r; finish; return a : Reader α) ⟨text, []⟩ = .error e c := bind_of_error h
  rw [run, hwhole]

/-- A bracket ends the elements and stays. -/
theorem nextElement_of_bracket {first : Bool} {rest : Bytes} (h : Next ']' c.rest rest) :
    nextElement first c = .ok false ⟨unspaced c.rest, c.warnings⟩ := by
  rw [nextElement]
  rw [peek_bind_of_next h]
  rfl

/-- An element follows at its lead, unless a bracket stands there. -/
theorem nextElement_of_lead {first : Bool} {ch : Char} {item rest : Bytes}
    (hlead : Lead first c.rest item) (h : Next ch item rest) (hne : ch ≠ ']') :
    nextElement first c = .ok true ⟨unspaced item, c.warnings⟩ := by
  rw [nextElement]
  cases first with
  -- the first element has no comma in front of it
  | true =>
    obtain rfl : item = c.rest := hlead
    rw [peek_bind_of_next h]
    simp only [if_true]
    rfl
  | false =>
    rw [peek_bind_of_next hlead]
    apply (bind_of_ok (advance_of_next hlead)).trans
    rw [peek_bind_of_next h]
    simp only []
    rfl

theorem nextElement_ne_ok_of_nil {first more : Bool} (hnil : unspaced c.rest = []) :
    nextElement first c ≠ .ok more c' := by
  rw [nextElement, peek_bind_of_nil hnil]
  exact fail_ne_ok

/-- Behind a comma a bracket is refused, and so is the end of the text. -/
theorem nextElement_ne_ok_behind_comma {more : Bool} {rest : Bytes} (hcomma : Next ',' c.rest rest)
    (hno : ∀ ch t, Next ch rest t → ch = ']') : nextElement false c ≠ .ok more c' := by
  rw [nextElement, peek_bind_of_next hcomma]
  intro h
  replace h := (bind_of_ok (advance_of_next hcomma)).symm.trans h
  rcases nil_or_next rest with hnil | ⟨ch, t, hnext⟩
  · rw [peek_bind_of_nil hnil] at h
    exact fail_ne_ok h
  · obtain rfl := hno ch t hnext
    rw [peek_bind_of_next hnext] at h
    exact fail_ne_ok h

/-- Behind an element nothing but a bracket or a comma is let pass. -/
theorem nextElement_ne_ok_of_other {more : Bool} {ch : Char} {rest : Bytes}
    (hnext : Next ch c.rest rest) (hbracket : ch ≠ ']') (hcomma : ch ≠ ',') :
    nextElement false c ≠ .ok more c' := by
  have hother : some ch = some ']' → False := fun hsome => hbracket (Option.some.inj hsome)
  rw [nextElement, peek_bind_of_next hnext]
  simp only [Bool.false_eq_true, if_false, hcomma]
  exact fail_ne_ok

/-- Another element follows exactly if no bracket ends the array. -/
theorem of_nextElement_eq_ok {first more : Bool} (h : nextElement first c = .ok more c') :
    (more = false ∧ (∃ rest, Next ']' c.rest rest) ∧ c' = ⟨unspaced c.rest, c.warnings⟩) ∨
      (more = true ∧ ∃ item, Lead first c.rest item ∧ (∃ ch rest, Next ch item rest ∧ ch ≠ ']') ∧
        c' = ⟨unspaced item, c.warnings⟩) := by
  -- the next character decides: a bracket, the first element, or a comma and what is behind it
  rcases nil_or_next c.rest with hnil | ⟨ch, rest, hnext⟩
  · exact absurd h (nextElement_ne_ok_of_nil hnil)
  by_cases hbracket : ch = ']'
  · subst hbracket
    rw [nextElement_of_bracket hnext] at h
    cases h
    exact .inl ⟨rfl, ⟨rest, hnext⟩, rfl⟩
  cases first with
  | true =>
    have hlead : Lead true c.rest c.rest := rfl
    rw [nextElement_of_lead hlead hnext hbracket] at h
    cases h
    exact .inr ⟨rfl, c.rest, rfl, ⟨ch, rest, hnext, hbracket⟩, rfl⟩
  | false =>
    by_cases hcomma : ch = ','
    · subst hcomma
      -- a comma has to be followed by an element
      by_cases hmore : ∃ d t, Next d rest t ∧ d ≠ ']'
      · obtain ⟨d, t, hafter, hd⟩ := hmore
        have hlead : Lead false c.rest rest := hnext
        rw [nextElement_of_lead hlead hafter hd] at h
        cases h
        exact .inr ⟨rfl, rest, hnext, ⟨d, t, hafter, hd⟩, rfl⟩
      · have hno : ∀ d t, Next d rest t → d = ']' := by
          intro d t hafter
          exact Decidable.byContradiction fun hd => hmore ⟨d, t, hafter, hd⟩
        exact absurd h (nextElement_ne_ok_behind_comma hnext hno)
    · exact absurd h (nextElement_ne_ok_of_other hnext hbracket hcomma)

/-- A brace ends the members and stays. -/
theorem nextMember_of_brace {first : Bool} {rest : Bytes} (h : Next '\x7d' c.rest rest) :
    nextMember first c = .ok false ⟨unspaced c.rest, c.warnings⟩ := by
  rw [nextMember]
  rw [peek_bind_of_next h]
  rfl

/-- A member follows if the mark of a name stands at its lead; the mark is passed. -/
theorem nextMember_of_lead {first : Bool} {start name : Bytes} (hlead : Lead first c.rest start)
    (h : Next '"' start name) : nextMember first c = .ok true ⟨name, c.warnings⟩ := by
  rw [nextMember]
  cases first with
  | true =>
    obtain rfl : start = c.rest := hlead
    rw [peek_bind_of_next h]
    exact bind_of_ok (advance_of_next h)
  | false =>
    rw [peek_bind_of_next hlead]
    apply (bind_of_ok (advance_of_next hlead)).trans
    rw [peek_bind_of_next h]
    exact bind_of_ok (advance_of_next h)

theorem nextMember_ne_ok_of_nil {first more : Bool} (hnil : unspaced c.rest = []) :
    nextMember first c ≠ .ok more c' := by
  rw [nextMember, peek_bind_of_nil hnil]
  exact fail_ne_ok

/-- Behind a brace a name is due, if the object is not closed at once. -/
theorem nextMember_ne_ok_of_first {more : Bool} {ch : Char} {rest : Bytes}
    (hnext : Next ch c.rest rest) (hbrace : ch ≠ '\x7d') (hmark : ch ≠ '"') :
    nextMember true c ≠ .ok more c' := by
  have hother : some ch = some '\x7d' → False := fun hsome => hbrace (Option.some.inj hsome)
  rw [nextMember, peek_bind_of_next hnext]
  simp only [if_true, hmark, if_false]
  exact fail_ne_ok

/-- Behind a comma nothing but a name is let pass. -/
theorem nextMember_ne_ok_behind_comma {more : Bool} {rest : Bytes} (hcomma : Next ',' c.rest rest)
    (hno : ∀ t, ¬ Next '"' rest t) : nextMember false c ≠ .ok more c' := by
  rw [nextMember, peek_bind_of_next hcomma]
  intro h
  replace h := (bind_of_ok (advance_of_next hcomma)).symm.trans h
  rcases nil_or_next rest with hnil | ⟨ch, t, hnext⟩
  · rw [peek_bind_of_nil hnil] at h
    exact fail_ne_ok h
  · rw [peek_bind_of_next hnext] at h
    have hother : some ch = some '"' → False := fun hsome => hno t (Option.some.inj hsome ▸ hnext)
    simp only [] at h
    exact fail_ne_ok h

/-- Behind a member nothing but a brace or a comma is let pass. -/
theorem nextMember_ne_ok_of_other {more : Bool} {ch : Char} {rest : Bytes}
    (hnext : Next ch c.rest rest) (hbrace : ch ≠ '\x7d') (hcomma : ch ≠ ',') :
    nextMember false c ≠ .ok more c' := by
  have hother : some ch = some '\x7d' → False := fun hsome => hbrace (Option.some.inj hsome)
  rw [nextMember, peek_bind_of_next hnext]
  simp only [Bool.false_eq_true, if_false, hcomma]
  exact fail_ne_ok

/-- Another member follows exactly if no brace ends the object. -/
theorem of_nextMember_eq_ok {first more : Bool} (h : nextMember first c = .ok more c') :
    (more = false ∧ (∃ rest, Next '\x7d' c.rest rest) ∧ c' = ⟨unspaced c.rest, c.warnings⟩) ∨
      (more = true ∧ ∃ start name, Lead first c.rest start ∧ Next '"' start name ∧
        c' = ⟨name, c.warnings⟩) := by
  -- the next character decides: a brace, the first name, or a comma and what is behind it
  rcases nil_or_next c.rest with hnil | ⟨ch, rest, hnext⟩
  · exact absurd h (nextMember_ne_ok_of_nil hnil)
  by_cases hbrace : ch = '\x7d'
  · subst hbrace
    rw [nextMember_of_brace hnext] at h
    cases h
    exact .inl ⟨rfl, ⟨rest, hnext⟩, rfl⟩
  cases first with
  | true =>
    by_cases hmark : ch = '"'
    · subst hmark
      have hlead : Lead true c.rest c.rest := rfl
      rw [nextMember_of_lead hlead hnext] at h
      cases h
      exact .inr ⟨rfl, c.rest, rest, rfl, hnext, rfl⟩
    · exact absurd h (nextMember_ne_ok_of_first hnext hbrace hmark)
  | false =>
    by_cases hcomma : ch = ','
    · subst hcomma
      -- a comma has to be followed by a name
      by_cases hmore : ∃ t, Next '"' rest t
      · obtain ⟨t, hafter⟩ := hmore
        have hlead : Lead false c.rest rest := hnext
        rw [nextMember_of_lead hlead hafter] at h
        cases h
        exact .inr ⟨rfl, rest, t, hnext, hafter, rfl⟩
      · exact absurd h (nextMember_ne_ok_behind_comma hnext fun t hafter => hmore ⟨t, hafter⟩)
    · exact absurd h (nextMember_ne_ok_of_other hnext hbrace hcomma)

end Reader
end CredentialCeremony
