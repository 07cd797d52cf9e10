import CredentialCeremony.Proofs.Reading.Skip
import CredentialCeremony.Proofs.Reading.Value
import CredentialCeremony.Schema.Direct

set_option autoImplicit false

/-!
# Readers that cannot go astray

Strings, numbers, binary values, strict choices, dictionaries of strings and the arrays that are read
as trees first: these readers succeed on exactly the texts that spell a value out of which the tree
reader takes the same result (`Reader.Exact`). A failure of theirs is one of the document.
-/

namespace CredentialCeremony.Reader

open Grammar

variable {α β : Type}

/-! ## Laws of exact readers -/

/-- Two ways of taking a result out of a tree that succeed alike are read alike. -/
theorem Exact.congr {depth : Nat} {r : Reader α} {x y : Json → Extractor α} (h : Exact depth r x)
    (hxy : ∀ json w a w', x json w = .ok a w' ↔ y json w = .ok a w') : Exact depth r y := by
  intro c a c'
  rw [h]
  simp only [hxy]

/-- What is taken out of the result of an exact reader. -/
theorem Exact.bind_extract {depth : Nat} {r : Reader α} {x : Json → Extractor α}
    (h : Exact depth r x) (f : α → Extractor β) :
    Exact depth (do let a ← r; extract (f a)) (fun json => do f (← x json)) := by
  intro c b c'
  simp only [bind_eq_ok_iff, extract_eq_ok_iff, h _ _ _]
  constructor
  · rintro ⟨a, c₁, ⟨json, hjson, hdepth, hx⟩, hf, hrest⟩
    exact ⟨json, hrest ▸ hjson, hdepth, a, c₁.warnings, hx, hf⟩
  · rintro ⟨json, hjson, hdepth, a, w, hx, hf⟩
    exact ⟨a, ⟨c'.rest, w⟩, ⟨json, hjson, hdepth, hx⟩, hf, rfl⟩

/-! ## Scalars -/

theorem string_eq_ok_iff {c c' : Cursor} {s : String} : string c = .ok s c' ↔
    (Json.string s).Spelled c.rest c'.rest ∧ c'.warnings = c.warnings := by
  rw [string]
  refine (opening_eq_ok_iff '"' stringBody rfl fun o s ho => ?_).trans ?_
  · split
    · exact absurd rfl ho
    · exact fail_ne_ok
  · simp only [stringBody_eq_ok_iff]
    constructor
    · rintro ⟨quoted, hmark, hchars, hwarnings⟩
      exact ⟨⟨quoted, hmark, hchars⟩, hwarnings⟩
    · rintro ⟨⟨quoted, hmark, hchars⟩, hwarnings⟩
      exact ⟨quoted, hmark, hchars, hwarnings⟩

theorem extractor_string_eq_ok_iff {json : Json} {s : String} {w w' : List TimeoutWarning} :
    Extractor.string json w = .ok s w' ↔ json = .string s ∧ w = w' := by
  cases json with
  | string s' => simp [Extractor.string, pure_eq_ok_iff]
  | _ => exact iff_of_false throw_ne_ok (by simp)

theorem string_exact (depth : Nat) : Exact depth string Extractor.string := by
  intro c s c'
  rw [string_eq_ok_iff]
  simp only [extractor_string_eq_ok_iff]
  constructor
  · rintro ⟨h, hwarnings⟩
    exact ⟨.string s, h, Nat.zero_le _, rfl, hwarnings.symm⟩
  · rintro ⟨json, h, -, rfl, hwarnings⟩
    exact ⟨h, hwarnings.symm⟩

/-- The number that stands in a tree. -/
def numberOf : Json → Extractor Number
  | .number n => return n
  | _ => Extractor.fail

theorem numberOf_eq_ok_iff {json : Json} {n : Number} {w w' : List TimeoutWarning} :
    numberOf json w = .ok n w' ↔ json = .number n ∧ w = w' := by
  cases json with
  | number n' => simp [numberOf, pure_eq_ok_iff]
  | _ => exact iff_of_false throw_ne_ok (by simp)

theorem number_eq_ok_iff {c c' : Cursor} {n : Number} : number c = .ok n c' ↔
    (Json.number n).Spelled c.rest c'.rest ∧ c'.warnings = c.warnings := by
  rw [number]
  rcases nil_or_next c.rest with hnil | ⟨ch, t, hnext⟩
  · rw [peek_bind_of_nil hnil]
    apply iff_of_false fail_ne_ok
    rintro ⟨h, -⟩
    obtain ⟨ch, t, hnext, -⟩ := h.opens
    exact not_next_of_nil hnil hnext
  rw [peek_bind_of_next hnext]
  by_cases hminus : ch = '-'
  · subst hminus
    rw [Json.number_spelled_minus_iff hnext]
    apply Iff.trans (iff_of_eq (congrArg (· = _) (bind_of_ok (advance_of_next hnext))))
    exact scan_eq_ok_iff
  · have hother : some ch = some '-' → False := fun h => hminus (Option.some.inj h)
    simp only []
    by_cases hdigit : ch.isDigit = true
    · rw [Json.number_spelled_digit_iff hnext hdigit, if_pos hdigit]
      exact scan_eq_ok_iff
    · rw [if_neg hdigit]
      apply iff_of_false fail_ne_ok
      rintro ⟨h, -⟩
      rcases h.opens_of_next hnext with rfl | h
      · exact hminus rfl
      · exact hdigit h

theorem number_exact (depth : Nat) : Exact depth number numberOf := by
  intro c n c'
  rw [number_eq_ok_iff]
  simp only [numberOf_eq_ok_iff]
  constructor
  · rintro ⟨h, hwarnings⟩
    exact ⟨.number n, h, Nat.zero_le _, rfl, hwarnings.symm⟩
  · rintro ⟨json, h, -, rfl, hwarnings⟩
    exact ⟨h, hwarnings.symm⟩

/-- What fails on all but numbers is read off numbers. -/
theorem ofNumber_exact {x : Json → Extractor α} (depth : Nat)
    (hx : ∀ json, (∀ n, json ≠ .number n) → x json = Extractor.fail) :
    Exact depth (ofNumber x) x := by
  refine ((number_exact depth).bind_extract fun n => x (.number n)).congr ?_
  intro json w a w'
  simp only [bind_eq_ok_iff, numberOf_eq_ok_iff]
  constructor
  · rintro ⟨n, w₁, ⟨rfl, rfl⟩, h⟩
    exact h
  · intro h
    cases json with
    | number n => exact ⟨n, w, ⟨rfl, rfl⟩, h⟩
    | _ =>
      rw [hx _ (by simp)] at h
      exact absurd h throw_ne_ok

theorem byte_exact (depth : Nat) : Exact depth (ofNumber Extractor.byte) Extractor.byte := by
  apply ofNumber_exact depth
  intro json hother
  cases json with
  | number n => exact absurd rfl (hother n)
  | _ => rfl

theorem word_exact (depth : Nat) : Exact depth (ofNumber Extractor.word) Extractor.word := by
  apply ofNumber_exact depth
  intro json hother
  cases json with
  | number n => exact absurd rfl (hother n)
  | _ => rfl

theorem integer_exact (depth : Nat) :
    Exact depth (ofNumber Extractor.integer) Extractor.integer := by
  apply ofNumber_exact depth
  intro json hother
  cases json with
  | number n => exact absurd rfl (hother n)
  | _ => rfl

/-- The flag that stands in a tree. -/
def flagOf : Json → Extractor Bool
  | .bool b => return b
  | _ => Extractor.fail

theorem flagOf_eq_ok_iff {json : Json} {b : Bool} {w w' : List TimeoutWarning} :
    flagOf json w = .ok b w' ↔ json = .bool b ∧ w = w' := by
  cases json with
  | bool b' => simp [flagOf, pure_eq_ok_iff]
  | _ => exact iff_of_false throw_ne_ok (by simp)

theorem flag_eq_ok_iff {c c' : Cursor} {b : Bool} : flag c = .ok b c' ↔
    (Json.bool b).Spelled c.rest c'.rest ∧ c'.warnings = c.warnings := by
  rw [flag]
  rcases nil_or_next c.rest with hnil | ⟨ch, t, hnext⟩
  · rw [peek_bind_of_nil hnil]
    apply iff_of_false fail_ne_ok
    rintro ⟨h, -⟩
    obtain ⟨ch, t, hnext, -⟩ := h.opens
    exact not_next_of_nil hnil hnext
  rw [peek_bind_of_next hnext]
  -- the word that stands there tells its first character
  have hopens (h : (Json.bool b).Spelled c.rest c'.rest) : ch = if b then 't' else 'f' :=
    h.opens_of_next hnext
  by_cases htrue : ch = 't'
  · subst htrue
    apply (behind_word_eq_ok_iff "true" "rue" hnext rfl).trans
    constructor
    · rintro ⟨h, hwarnings, rfl⟩
      exact ⟨h, hwarnings⟩
    · rintro ⟨h, hwarnings⟩
      cases b with
      | true => exact ⟨h, hwarnings, rfl⟩
      | false => exact absurd (hopens h) (by decide)
  by_cases hfalse : ch = 'f'
  · subst hfalse
    apply (behind_word_eq_ok_iff "false" "alse" hnext rfl).trans
    constructor
    · rintro ⟨h, hwarnings, rfl⟩
      exact ⟨h, hwarnings⟩
    · rintro ⟨h, hwarnings⟩
      cases b with
      | true => exact absurd (hopens h) (by decide)
      | false => exact ⟨h, hwarnings, rfl⟩
  · have hnotrue : some ch = some 't' → False := fun h => htrue (Option.some.inj h)
    have hnofalse : some ch = some 'f' → False := fun h => hfalse (Option.some.inj h)
    simp only []
    apply iff_of_false fail_ne_ok
    rintro ⟨h, -⟩
    cases b with
    | true => exact htrue (hopens h)
    | false => exact hfalse (hopens h)

theorem flag_exact (depth : Nat) : Exact depth flag flagOf := by
  intro c b c'
  rw [flag_eq_ok_iff]
  simp only [flagOf_eq_ok_iff]
  constructor
  · rintro ⟨h, hwarnings⟩
    exact ⟨.bool b, h, Nat.zero_le _, rfl, hwarnings.symm⟩
  · rintro ⟨json, h, -, rfl, hwarnings⟩
    exact ⟨h, hwarnings.symm⟩

/-! ## Arrays -/

theorem nested_eq_ok_iff {depth : Nat} {body : Nat → Reader α} {ch : Char} {text t : Bytes}
    {w : List TimeoutWarning} {c' : Cursor} {a : α} (hnext : Next ch text t) :
    nested depth body ⟨unspaced text, w⟩ = .ok a c' ↔
      ∃ d, depth = d + 1 ∧ body d ⟨t, w⟩ = .ok a c' := by
  cases depth with
  | zero => exact iff_of_false fail_ne_ok (by simp)
  | succ d =>
    apply Iff.trans (iff_of_eq (congrArg (· = _) (bind_of_ok (advance_of_next hnext))))
    simp

theorem array_eq_ok_iff {depth : Nat} {element : Nat → Reader α} {c c' : Cursor} {as : List α} :
    array depth element c = .ok as c' ↔ ∃ t d c₁, Next '[' c.rest t ∧ depth = d + 1 ∧
      elements (element d) ⟨t, c.warnings⟩ = .ok as c₁ ∧ closeArray c₁ = .ok () c' := by
  rw [array]
  refine (peek_bind_eq_ok_iff '[' fun o s ho => ?_).trans ?_
  · split
    · exact absurd rfl ho
    · exact fail_ne_ok
  · constructor
    · rintro ⟨t, hnext, h⟩
      obtain ⟨d, hdepth, h⟩ := (nested_eq_ok_iff hnext).1 h
      obtain ⟨items, c₁, helements, h⟩ := bind_eq_ok_iff.1 h
      obtain ⟨u, c₂, hclose, h⟩ := bind_eq_ok_iff.1 h
      obtain ⟨rfl, rfl⟩ := pure_eq_ok_iff.1 h
      exact ⟨t, d, c₁, hnext, hdepth, helements, hclose⟩
    · rintro ⟨t, d, c₁, hnext, hdepth, helements, hclose⟩
      refine ⟨t, hnext, (nested_eq_ok_iff hnext).2 ⟨d, hdepth, ?_⟩⟩
      exact bind_eq_ok_iff.2 ⟨as, c₁, helements, bind_eq_ok_iff.2 ⟨(), c', hclose, rfl⟩⟩

/-- The elements of an array in a tree. -/
def itemsOf (x : Json → Extractor α) : Json → Extractor (List α)
  | .array items => Extractor.all x items
  | _ => Extractor.fail

theorem itemsOf_eq_ok_iff {x : Json → Extractor α} {json : Json} {as : List α}
    {w w' : List TimeoutWarning} : itemsOf x json w = .ok as w' ↔
      ∃ items, json = .array items ∧ Extractor.all x items w = .ok as w' := by
  cases json with
  | array items => simp [itemsOf]
  | _ => exact iff_of_false throw_ne_ok (by simp)

/-- An array of what is read exactly is read exactly. -/
theorem array_exact {element : Nat → Reader α} {x : Json → Extractor α}
    (h : ∀ depth, Exact depth (element depth) x) (depth : Nat) :
    Exact depth (array depth element) (itemsOf x) := by
  intro c as c'
  rw [array_eq_ok_iff]
  simp only [itemsOf_eq_ok_iff]
  constructor
  · rintro ⟨t, d, c₁, hnext, rfl, helements, hclose⟩
    obtain ⟨items, hitems, hdepths, hall⟩ := (h d).elements_close_iff.1 ⟨c₁, helements, hclose⟩
    exact ⟨.array items, ⟨t, hnext, hitems⟩,
      Nat.succ_le_succ (Json.itemsDepth_le_iff.2 hdepths), items, rfl, hall⟩
  -- a depth of at most zero leaves no room for an array
  · rintro ⟨json, hjson, hdepth, items, rfl, hall⟩
    obtain ⟨t, hnext, hitems⟩ := hjson
    cases depth with
    | zero => cases hdepth
    | succ d =>
      have hdepths := Json.itemsDepth_le_iff.1 (Nat.le_of_succ_le_succ hdepth)
      obtain ⟨c₁, helements, hclose⟩ :=
        ((h d).elements_close_iff (c := ⟨t, c.warnings⟩)).2 ⟨items, hitems, hdepths, hall⟩
      exact ⟨t, d, c₁, hnext, rfl, helements, hclose⟩

/-- What is read as trees first and then taken out of them is read exactly. -/
theorem tolerant_exact (x : Json → Extractor α) (depth : Nat) :
    Exact depth (do
      let items ← array depth value
      extract (Extractor.readable x items)) (fun json =>
        match json with
        | .array items => Extractor.readable x items
        | _ => Extractor.fail) := by
  apply ((array_exact value_exact depth).bind_extract (Extractor.readable x)).congr
  intro json w a w'
  simp only [bind_eq_ok_iff, itemsOf_eq_ok_iff, all_pure]
  cases json with
  | array items =>
    constructor
    · rintro ⟨as, w₁, ⟨items', hitems, rfl, rfl⟩, h⟩
      cases hitems
      exact h
    · intro h
      exact ⟨items, w, ⟨items, rfl, rfl, rfl⟩, h⟩
  | _ =>
    refine iff_of_false ?_ throw_ne_ok
    rintro ⟨_, _, ⟨_, h, -⟩, -⟩
    cases h

/-! ## Binary values and choices -/

/-- A string that comes next is read behind its mark. -/
theorem string_of_next {text t : Bytes} {w : List TimeoutWarning} (hnext : Next '"' text t) :
    string ⟨text, w⟩ = stringBody ⟨t, w⟩ := by
  rw [string]
  rw [peek_bind_of_next hnext]
  exact bind_of_ok (advance_of_next hnext)

/-- A choice by the next character is exact if it is so for every character. -/
theorem exact_of_peek {depth : Nat} {f : Option Char → Reader α} {x : Json → Extractor α}
    (hnone : ∀ s a s', f none s ≠ .ok a s')
    (hsome : ∀ ch t text w a c', Next ch text t → (f (some ch) ⟨unspaced text, w⟩ = .ok a c' ↔
      ∃ json : Json, json.Spelled text c'.rest ∧ json.depth ≤ depth ∧
        x json w = .ok a c'.warnings)) :
    Exact depth (do f (← peek)) x := by
  intro c a c'
  rcases nil_or_next c.rest with hnil | ⟨ch, t, hnext⟩
  · rw [peek_bind_of_nil hnil]
    apply iff_of_false (hnone _ _ _)
    rintro ⟨json, h, -⟩
    obtain ⟨ch, t, hnext, -⟩ := h.opens
    exact not_next_of_nil hnil hnext
  · rw [peek_bind_of_next hnext]
    exact hsome ch t c.rest c.warnings a c' hnext

/-- A string in a text, and what is taken out of it. -/
theorem string_bind_extract_eq_ok_iff {f : String → Extractor α} {x : Json → Extractor α}
    {depth : Nat} {text t : Bytes} {w : List TimeoutWarning} {c' : Cursor} {a : α}
    (hnext : Next '"' text t) (hx : ∀ s, x (.string s) = f s) :
    (do advance; let s ← stringBody; extract (f s) : Reader α) ⟨unspaced text, w⟩ = .ok a c' ↔
      ∃ json : Json, json.Spelled text c'.rest ∧ json.depth ≤ depth ∧
        x json w = .ok a c'.warnings := by
  -- the reader has looked at the mark already, which the reader of strings does once more
  have hstring : (do let s ← string; extract (f s) : Reader α) ⟨text, w⟩ =
      (do advance; let s ← stringBody; extract (f s) : Reader α) ⟨unspaced text, w⟩ := by
    rw [bind_of_ok (advance_of_next hnext)]
    exact bind_congr_of_eq (string_of_next hnext)
  rw [← hstring, (string_exact depth).bind_extract f]
  refine exists_congr fun json => and_congr_right fun h => and_congr_right fun _ => ?_
  obtain ⟨s, rfl⟩ := Json.opens_mark_iff.1 (h.opens_of_next hnext)
  rw [hx]
  simp only [bind_eq_ok_iff, extractor_string_eq_ok_iff]
  grind

/-- A binary value is read exactly. -/
theorem bytes_exact (depth : Nat) : Exact depth (bytes depth) Extractor.bytes := by
  rw [bytes]
  refine exact_of_peek (fun _ _ _ => fail_ne_ok) fun ch t text w b c' hnext => ?_
  by_cases hmark : ch = '"'
  · subst hmark
    exact string_bind_extract_eq_ok_iff hnext fun s => rfl
  by_cases hbracket : ch = '['
  · subst hbracket
    apply ((array_exact byte_exact depth) ⟨unspaced text, w⟩ b c').trans
    simp only [Json.spelled_unspaced_iff]
    refine exists_congr fun json => and_congr_right fun h => and_congr_right fun _ => ?_
    -- behind a bracket only the case of arrays is left of the tree reader
    obtain ⟨items, rfl⟩ := Json.opens_bracket_iff.1 (h.opens_of_next hnext)
    rfl
  · have hnomark : some ch = some '"' → False := fun h => hmark (Option.some.inj h)
    have hnobracket : some ch = some '[' → False := fun h => hbracket (Option.some.inj h)
    simp only []
    apply iff_of_false fail_ne_ok
    rintro ⟨json, h, -, hbytes⟩
    have hopens := h.opens_of_next hnext
    cases json with
    | string s => exact hmark hopens
    | array items => exact hbracket hopens
    | _ => exact throw_ne_ok hbytes

theorem unexpected_ne_ok {c c' : Cursor} {a : α} : (unexpected : Reader α) c ≠ .ok a c' := by
  rw [unexpected]
  rcases nil_or_next c.rest with hnil | ⟨ch, t, hnext⟩
  · rw [peek_bind_of_nil hnil]
    exact fail_ne_ok
  · rw [peek_bind_of_next hnext]
    intro h
    cases hscalar : scalar? ch with
    | none =>
      -- what is taken is refused all the same
      simp only [hscalar] at h
      exact fail_ne_ok h
    | some scalar =>
      simp only [hscalar] at h
      obtain ⟨json, c₁, -, h⟩ := bind_eq_ok_iff.1 h
      exact fail_ne_ok h

/-- The name of a choice is a string; anything else in its place is refused. -/
theorem choiceName_eq_ok_iff {c c' : Cursor} {s : String} : choiceName c = .ok s c' ↔
    (Json.string s).Spelled c.rest c'.rest ∧ c'.warnings = c.warnings := by
  rw [choiceName]
  refine (opening_eq_ok_iff '"' stringBody rfl fun o s ho => ?_).trans ?_
  · split
    · exact absurd rfl ho
    · exact unexpected_ne_ok
  · simp only [stringBody_eq_ok_iff]
    constructor
    · rintro ⟨quoted, hmark, hchars, hwarnings⟩
      exact ⟨⟨quoted, hmark, hchars⟩, hwarnings⟩
    · rintro ⟨⟨quoted, hmark, hchars⟩, hwarnings⟩
      exact ⟨quoted, hmark, hchars, hwarnings⟩

/-- Behind the name of a choice null stands; anything else is refused. -/
theorem choiceNull_eq_ok_iff {c c' : Cursor} {u : Unit} : choiceNull c = .ok u c' ↔
    Json.null.Spelled c.rest c'.rest ∧ c'.warnings = c.warnings := by
  rw [choiceNull]
  refine (opening_eq_ok_iff 'n' (word "ull") rfl fun o s ho => ?_).trans ?_
  · split
    · exact absurd rfl ho
    · exact unexpected_ne_ok
  · constructor
    · rintro ⟨t, hnext, hword⟩
      exact (word_eq_ok_iff "null" "ull" hnext rfl).1 hword
    · rintro ⟨h, hwarnings⟩
      obtain ⟨ch, t, hnext, hopens⟩ := h.opens
      cases hopens
      exact ⟨t, hnext, (word_eq_ok_iff "null" "ull" hnext rfl).2 ⟨h, hwarnings⟩⟩

theorem extractor_ofExcept_eq_ok_iff {e : Except ReadError α} {a : α}
    {w w' : List TimeoutWarning} :
    Extractor.ofExcept e w = .ok a w' ↔ e = .ok a ∧ w = w' := by
  cases e with
  | ok b => simp [Extractor.ofExcept, pure_eq_ok_iff]
  | error e => exact iff_of_false throw_ne_ok (by simp)

/-- A result that needs no log is taken where the reader stands. -/
theorem extract_ofExcept_eq_ok_iff {e : Except ReadError α} {a : α} {c c' : Cursor} :
    extract (Extractor.ofExcept e) c = .ok a c' ↔ e = .ok a ∧ c = c' := by
  obtain ⟨rest, w⟩ := c
  obtain ⟨rest', w'⟩ := c'
  rw [extract_eq_ok_iff, extractor_ofExcept_eq_ok_iff, Cursor.mk.injEq]
  grind

/-- A tree gives a choice exactly if it is a name, or an object of one name and null. -/
theorem extractor_choice_eq_ok_iff {ch : Choice α} {json : Json} {a : α}
    {w w' : List TimeoutWarning} : Extractor.choice ch json w = .ok a w' ↔
      (∃ name, (json = .string name ∨ json = .object [(name, .null)]) ∧ ch.ofName name = .ok a) ∧
        w = w' := by
  cases json with
  | string name => simp [Extractor.choice, extractor_ofExcept_eq_ok_iff]
  | object members =>
    cases members with
    | nil => exact iff_of_false throw_ne_ok (by simp)
    | cons m members =>
      obtain ⟨name, json⟩ := m
      cases members with
      | nil =>
        simp only [Extractor.choice, bind_eq_ok_iff, extractor_ofExcept_eq_ok_iff]
        by_cases hnull : json = .null
        · simp [hnull, pure_eq_ok_iff]
        · simp only [hnull, if_false]
          refine iff_of_false ?_ (by simp [hnull])
          rintro ⟨_, _, -, h⟩
          exact throw_ne_ok h
      | cons m members => exact iff_of_false throw_ne_ok (by simp)
  | _ => exact iff_of_false throw_ne_ok (by simp)

/-- A choice as an object is read behind its brace up to and with its closing one. -/
theorem choice_members_eq_ok_iff (ch : Choice α) {c c' : Cursor} {a : α} :
    (do
      let name ← choiceName
      let a ← extract (Extractor.ofExcept (ch.ofName name))
      colon
      choiceNull
      closeObject
      return a : Reader α) c = .ok a c' ↔
      ∃ name, Json.MembersSpelled [(name, .null)] true c.rest c'.rest ∧ ch.ofName name = .ok a ∧
        c'.warnings = c.warnings := by
  simp only [bind_eq_ok_iff, choiceName_eq_ok_iff, extract_eq_ok_iff, colon_eq_ok_iff,
    choiceNull_eq_ok_iff, closeObject_eq_ok_iff, extractor_ofExcept_eq_ok_iff, pure_eq_ok_iff]
  constructor
  · rintro ⟨name, c₁, ⟨⟨quoted, hmark, hchars⟩, hw₁⟩, b, c₂, ⟨⟨hname, hw₂⟩, hrest⟩, _, _,
      ⟨item, hcolon, rfl⟩, _, c₃, ⟨hnull, hw₃⟩, _, _, ⟨rest, hclose, rfl⟩, rfl, rfl⟩
    rw [hrest] at hcolon
    refine ⟨name, ⟨c.rest, quoted, c₁.rest, item, c₃.rest, rfl, hmark, hchars, hcolon, hnull, hclose⟩,
      hname, ?_⟩
    exact hw₃.trans (hw₂.symm.trans hw₁)
  · rintro ⟨name, ⟨start, quoted, behind, item, last, hlead, hmark, hchars, hcolon, hnull, hclose⟩,
      hname, hwarnings⟩
    cases hlead
    have hcursor : c' = ⟨c'.rest, c.warnings⟩ := by rw [← hwarnings]
    exact ⟨name, ⟨behind, c.warnings⟩, ⟨⟨quoted, hmark, hchars⟩, rfl⟩, a, ⟨behind, c.warnings⟩,
      ⟨⟨hname, rfl⟩, rfl⟩, (), _, ⟨item, hcolon, rfl⟩, (), ⟨last, c.warnings⟩, ⟨hnull, rfl⟩, (), c',
      ⟨c'.rest, hclose, hcursor⟩, rfl, rfl⟩

/-- A choice is read exactly. -/
theorem choice_exact (ch : Choice α) (depth : Nat) :
    Exact depth (choice depth ch) (Extractor.choice ch) := by
  rw [choice]
  refine exact_of_peek (fun _ _ _ => fail_ne_ok) fun d t text w a c' hnext => ?_
  by_cases hmark : d = '"'
  · subst hmark
    exact string_bind_extract_eq_ok_iff hnext fun s => rfl
  by_cases hbrace : d = '\x7b'
  · subst hbrace
    apply (nested_eq_ok_iff hnext).trans
    constructor
    · rintro ⟨d, rfl, h⟩
      obtain ⟨name, hmembers, hname, hwarnings⟩ := (choice_members_eq_ok_iff ch).1 h
      have hdepth : (Json.object [(name, .null)]).depth ≤ d + 1 := Nat.succ_le_succ (Nat.zero_le d)
      exact ⟨.object [(name, .null)], ⟨t, hnext, hmembers⟩, hdepth,
        extractor_choice_eq_ok_iff.2 ⟨⟨name, .inr rfl, hname⟩, hwarnings.symm⟩⟩
    -- of the two forms of a choice, only the object opens with a brace
    · rintro ⟨json, h, hdepth, hchoice⟩
      obtain ⟨⟨name, rfl | rfl, hname⟩, hwarnings⟩ := extractor_choice_eq_ok_iff.1 hchoice
      · cases h.opens_of_next hnext
      · cases depth with
        | zero => cases hdepth
        | succ d =>
          have hmembers := (Json.exists_next_iff hnext).1 h
          exact ⟨d, rfl, (choice_members_eq_ok_iff ch).2 ⟨name, hmembers, hname, hwarnings.symm⟩⟩
  · have hnomark : some d = some '"' → False := fun h => hmark (Option.some.inj h)
    have hnobrace : some d = some '\x7b' → False := fun h => hbrace (Option.some.inj h)
    simp only []
    apply iff_of_false fail_ne_ok
    rintro ⟨json, h, -, hchoice⟩
    have hopens := h.opens_of_next hnext
    cases json with
    | string s => exact hmark hopens
    | object members => exact hbrace hopens
    | _ => exact throw_ne_ok hchoice

/-! ## Dictionaries and null -/

theorem strings_eq_overMembers {members : List (String × Json)} {d : Dictionary String} :
    Extractor.strings members d =
      overMembers (fun name json d => do return d.insert name (← Extractor.string json))
        members d := by
  induction members generalizing d with
  | nil => rfl
  | cons m members ih =>
    obtain ⟨name, json⟩ := m
    -- one member is taken, and the others by the hypothesis
    unfold Extractor.strings overMembers
    simp only [List.foldlM_cons, bind_assoc, pure_bind]
    refine congrArg _ (funext fun s => ?_)
    exact ih

theorem exactMember_insert (depth : Nat) :
    ExactMember depth (fun name (d : Dictionary String) => do
      colon
      let s ← string
      return d.insert name s)
      fun name json d => do return d.insert name (← Extractor.string json) := by
  intro name d c d' c'
  simp only [bind_eq_ok_iff, colon_eq_ok_iff, string_eq_ok_iff, pure_eq_ok_iff,
    extractor_string_eq_ok_iff]
  constructor
  · rintro ⟨_, _, ⟨item, hcolon, rfl⟩, s, c₁, ⟨h, hwarnings⟩, rfl, rfl⟩
    exact ⟨item, .string s, hcolon, h, Nat.zero_le _, s, _, ⟨rfl, hwarnings.symm⟩, rfl, rfl⟩
  · rintro ⟨item, json, hcolon, h, -, s, _, ⟨rfl, rfl⟩, rfl, hwarnings⟩
    exact ⟨(), _, ⟨item, hcolon, rfl⟩, s, c', ⟨h, hwarnings.symm⟩, rfl, rfl⟩

/-- The dictionary of an object in a tree. -/
def dictionaryOf : Json → Extractor (Dictionary String)
  | .object members => Extractor.strings members .empty
  | _ => Extractor.fail

/-- A dictionary of strings is read exactly. -/
theorem dictionary_exact (mode : Resumption) (depth : Nat) :
    Exact depth (Schema.dictionary.read mode depth) dictionaryOf := by
  rw [Schema.read]
  refine exact_of_peek (fun _ _ _ => fail_ne_ok) fun ch t text w d c' hnext => ?_
  by_cases hbrace : ch = '\x7b'
  · subst hbrace
    apply (nested_eq_ok_iff hnext).trans
    simp only [bind_eq_ok_iff, pure_eq_ok_iff]
    constructor
    · rintro ⟨n, rfl, _, c₁, hmembers, u, _, hclose, rfl, rfl⟩
      obtain ⟨members, hspelled, hdepths, hover⟩ :=
        (exactMember_insert n).members_close_iff.1 ⟨c₁, hmembers, hclose⟩
      -- the loop over the text and the one over the tree insert in the same order
      rw [← strings_eq_overMembers] at hover
      exact ⟨.object members, ⟨t, hnext, hspelled⟩,
        Nat.succ_le_succ (Json.membersDepth_le_iff.2 hdepths), hover⟩
    · rintro ⟨json, h, hdepth, hx⟩
      obtain ⟨members, rfl⟩ := Json.opens_brace_iff.1 (h.opens_of_next hnext)
      cases depth with
      | zero => cases hdepth
      | succ n =>
        have hspelled := (Json.exists_next_iff hnext).1 h
        have hdepths := Json.membersDepth_le_iff.1 (Nat.le_of_succ_le_succ hdepth)
        rw [dictionaryOf, strings_eq_overMembers] at hx
        obtain ⟨c₁, hmembers, hclose⟩ :=
          ((exactMember_insert n).members_close_iff (c := ⟨t, w⟩)).2
            ⟨members, hspelled, hdepths, hx⟩
        exact ⟨n, rfl, d, c₁, hmembers, (), c', hclose, rfl, rfl⟩
  · have hother : some ch = some '\x7b' → False := fun h => hbrace (Option.some.inj h)
    simp only []
    apply iff_of_false fail_ne_ok
    rintro ⟨json, h, -, hx⟩
    have hopens := h.opens_of_next hnext
    cases json with
    | object members => exact hbrace hopens
    | _ => exact throw_ne_ok hx

/-- What does not start like null is left to the reader. -/
theorem nullable_of_other {r : Reader α} {c : Cursor} (h : ∀ t, ¬ Next 'n' c.rest t) :
    nullable r c = (do return some (← r) : Reader (Option α)) ⟨unspaced c.rest, c.warnings⟩ := by
  rw [nullable]
  rcases nil_or_next c.rest with hnil | ⟨ch, t, hnext⟩
  · rw [peek_bind_of_nil hnil, hnil]
  · rw [peek_bind_of_next hnext]
    have hother : some ch = some 'n' → False := fun hsome => h t (Option.some.inj hsome ▸ hnext)
    simp only []

theorem nullable_of_null {r : Reader α} {text rest : Bytes} {w : List TimeoutWarning}
    (h : Json.null.Spelled text rest) : nullable r ⟨text, w⟩ = .ok none ⟨rest, w⟩ := by
  obtain ⟨ch, t, hnext, hopens⟩ := h.opens
  cases hopens
  have hword : word "ull" ⟨t, w⟩ = .ok () ⟨rest, w⟩ :=
    (word_eq_ok_iff "null" "ull" hnext rfl).2 ⟨h, rfl⟩
  rw [nullable]
  rw [peek_bind_of_next hnext]
  apply (bind_of_ok (advance_of_next hnext)).trans
  rw [bind_of_ok hword]
  rfl

/-- Null is read as nothing, and what does not start like null by the reader. -/
theorem of_nullable_eq_ok {r : Reader α} {c c' : Cursor} {o : Option α}
    (h : nullable r c = .ok o c') :
    (o = none ∧ Json.null.Spelled c.rest c'.rest ∧ c'.warnings = c.warnings) ∨
      ((∀ t, ¬ Next 'n' c.rest t) ∧
        ∃ a, o = some a ∧ r ⟨unspaced c.rest, c.warnings⟩ = .ok a c') := by
  -- one character decides, before anything is taken
  by_cases hn : ∃ t, Next 'n' c.rest t
  · obtain ⟨t, hnext⟩ := hn
    unfold nullable at h
    rw [peek_bind_of_next hnext] at h
    replace h := (bind_of_ok (advance_of_next hnext)).symm.trans h
    obtain ⟨u, c₁, hword, h⟩ := bind_eq_ok_iff.1 h
    obtain ⟨rfl, rfl⟩ := pure_eq_ok_iff.1 h
    exact .inl ⟨rfl, (word_eq_ok_iff "null" "ull" hnext rfl).1 hword⟩
  · have hother : ∀ t, ¬ Next 'n' c.rest t := fun t hnext => hn ⟨t, hnext⟩
    rw [nullable_of_other hother] at h
    obtain ⟨a, c₁, ha, h⟩ := bind_eq_ok_iff.1 h
    obtain ⟨rfl, rfl⟩ := pure_eq_ok_iff.1 h
    exact .inr ⟨hother, a, rfl, ha⟩

end CredentialCeremony.Reader
