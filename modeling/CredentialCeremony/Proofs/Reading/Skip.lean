import CredentialCeremony.Proofs.Json.Spelling
import CredentialCeremony.Proofs.Reading.Run

set_option autoImplicit false

/-!
# What is passed over

A value is passed over exactly if it is one of the grammar (`skip_eq_ok_iff`), so that whether a
text is a document can be found out by passing over it (`document_iff`). Both directions follow the
open containers: behind each value, what is left belongs to them.
-/

namespace CredentialCeremony.Reader

open Grammar

/-- Goes on as the answer of a round says. -/
def resume (clock : Bytes) : Option (List Container) → Reader Unit
  | none => return ()
  | some containers => skipAlong clock containers

/-- One round, of which the next character is known. -/
def round (containers : List Container) (ch : Char) : Reader (Option (List Container)) :=
  if ch = '[' then enter .array containers
  else if ch = '\x7b' then enter .object containers
  else do
    skipScalar ch
    leave containers

theorem skipAlong_of_next {b : UInt8} {clock : Bytes} {containers : List Container} {c : Cursor}
    {ch : Char} {t : Bytes} (hnext : Next ch c.rest t) : skipAlong (b :: clock) containers c =
      (do resume clock (← round containers ch) : Reader Unit) ⟨unspaced c.rest, c.warnings⟩ := by
  rw [skipAlong, peek_bind_of_next hnext]
  by_cases hbracket : ch = '['
  · subst hbracket
    rfl
  by_cases hbrace : ch = '\x7b'
  · subst hbrace
    rfl
  -- anything but an opening is a scalar, behind which containers may end
  have hround : round containers ch = (do skipScalar ch; leave containers) := by
    simp [round, hbracket, hbrace]
  rw [hround, bind_assoc]
  have hnobracket : some ch = some '[' → False := fun h => hbracket (Option.some.inj h)
  have hnobrace : some ch = some '\x7b' → False := fun h => hbrace (Option.some.inj h)
  simp only []
  rfl

theorem skipAlong_of_nil {clock : Bytes} {containers : List Container} {c c' : Cursor} {u : Unit}
    (hnil : unspaced c.rest = []) : skipAlong clock containers c ≠ .ok u c' := by
  cases clock with
  | nil => exact fail_ne_ok
  | cons b clock =>
    rw [skipAlong, peek_bind_of_nil hnil]
    intro h
    obtain ⟨more, c₁, hround, -⟩ := bind_eq_ok_iff.1 h
    exact fail_ne_ok hround

/-- What stands in front of a value inside a container: nothing, or a name and its colon. -/
def Container.Front : Container → (text item : Bytes) → Prop
  | .array, text, item => item = text
  | .object, text, item => ∃ quoted colon, Next '"' text quoted ∧ Escaped quoted colon ∧
      Next ':' colon item

/-- The character that starts a container. -/
def Container.opening : Container → Char
  | .array => '['
  | .object => '\x7b'

/-- The rest of a container, from one of its elements or members on. -/
def Container.Ends : Container → (first : Bool) → (text rest : Bytes) → Prop
  | .array => Elements
  | .object => Members

/-- The rest of the containers that are open behind a value, from the inside out. -/
def AllEnd : List Container → (text rest : Bytes) → Prop
  | [], text, rest => text = rest
  | inner :: outer, text, rest => ∃ mid, inner.Ends false text mid ∧ AllEnd outer mid rest

/-- What remains behind a round: nothing, or a value and the rest of the containers around it. -/
def Remains : Option (List Container) → (text rest : Bytes) → Prop
  | none, text, rest => text = rest
  | some containers, text, rest => ∃ mid, Value text mid ∧ AllEnd containers mid rest

theorem skipName_eq_ok_iff {c c' : Cursor} {u : Unit} : skipName c = .ok u c' ↔
    Container.object.Front c.rest c'.rest ∧ c'.warnings = c.warnings := by
  rw [skipName]
  refine (opening_eq_ok_iff '"' (do scan passString; colon) rfl fun o s ho => ?_).trans ?_
  · split
    · exact absurd rfl ho
    · exact fail_ne_ok
  simp only [bind_eq_ok_iff, scan_eq_ok_iff, passString_eq_ok_iff, colon_eq_ok_iff]
  obtain ⟨rest, warnings⟩ := c'
  constructor
  · rintro ⟨quoted, hmark, u, c₁, ⟨hname, hwarnings⟩, item, hcolon, heq⟩
    cases heq
    exact ⟨⟨quoted, c₁.rest, hmark, hname, hcolon⟩, hwarnings⟩
  · rintro ⟨⟨quoted, colon, hmark, hname, hcolon⟩, rfl⟩
    exact ⟨quoted, hmark, (), ⟨colon, c.warnings⟩, ⟨hname, rfl⟩, rest, hcolon, rfl⟩

theorem Container.next_eq_ok_iff {inner : Container} {c c' : Cursor} {u : Unit} :
    inner.next c = .ok u c' ↔ inner.Front c.rest c'.rest ∧ c'.warnings = c.warnings := by
  cases inner with
  | array =>
    apply pure_eq_ok_iff.trans
    obtain ⟨rest, warnings⟩ := c
    obtain ⟨rest', warnings'⟩ := c'
    simp only [Container.Front, Cursor.mk.injEq]
    grind
  | object => exact skipName_eq_ok_iff

/-! ## Only values of the grammar are passed -/

/-- A scalar that is passed is one of the grammar. -/
theorem scalar_of_skipScalar {ch : Char} {text t : Bytes} {w : List TimeoutWarning} {c' : Cursor}
    {u : Unit} (hnext : Next ch text t) (h : skipScalar ch ⟨unspaced text, w⟩ = .ok u c') :
    Value text c'.rest := by
  have hword (full rest : String) (hfull : full ∈ ["null", "true", "false"])
      (hchars : full.toList = ch :: rest.toList)
      (h : (do advance; word rest : Reader Unit) ⟨unspaced text, w⟩ = .ok u c') :
      Value text c'.rest := by
    rw [bind_of_ok (advance_of_next hnext)] at h
    have hscan := (scan_eq_ok_iff.1 h).1
    exact .scalar (.word hfull ((word_unspaced_iff hchars).2 ⟨t, hnext, hscan⟩))
  -- the character tells which kind of scalar is passed
  obtain ⟨b, htext, hb⟩ := hnext
  unfold skipScalar at h
  split at h
  · exact hword "null" "ull" (by simp) rfl h
  · exact hword "true" "rue" (by simp) rfl h
  · exact hword "false" "alse" (by simp) rfl h
  · rw [bind_of_ok (advance_of_next ⟨b, htext, hb⟩)] at h
    have hscan := passNumeral_eq_ok_iff_numeral.1 (scan_eq_ok_iff.1 h).1
    exact .scalar (htext ▸ .negative hb hscan)
  · rw [bind_of_ok (advance_of_next ⟨b, htext, hb⟩)] at h
    have hscan := passString_eq_ok_iff.1 (scan_eq_ok_iff.1 h).1
    exact .scalar (htext ▸ .string hb hscan)
  -- what starts like nothing else is a number or no scalar
  · split at h
    · exact .scalar (.positive (passNumeral_eq_ok_iff_numeral.1 (scan_eq_ok_iff.1 h).1))
    · exact absurd h fail_ne_ok

/-- A value behind the front of a container, and what ends the container behind it. -/
theorem Container.ends_of_lead {inner : Container} {first : Bool}
    {text start item behind rest : Bytes} (hlead : Lead first text start)
    (hfront : inner.Front start item) (hitem : Value item behind)
    (hends : inner.Ends false behind rest) : inner.Ends first text rest := by
  cases inner with
  | array =>
    cases hfront
    exact .item hlead hitem hends
  | object =>
    obtain ⟨quoted, colon, hmark, hname, hcolon⟩ := hfront
    exact .member hlead hmark hname hcolon hitem hends

theorem Container.ends_of_closing {inner : Container} {first : Bool} {text rest : Bytes}
    (h : Next inner.closing text rest) : inner.Ends first text rest := by
  cases inner with
  | array => exact .close h
  | object => exact .close h

/-- A container behind its opening is a value. -/
theorem Container.value_of_ends {inner : Container} {text t rest : Bytes}
    (hopen : Next inner.opening text t) (h : inner.Ends true t rest) : Value text rest := by
  cases inner with
  | array => exact .array hopen h
  | object => exact .object hopen h

/-- White space behind the opening of a container is no part of what follows. -/
theorem Container.ends_of_unspaced {inner : Container} {text rest : Bytes}
    (h : inner.Ends true (unspaced text) rest) : inner.Ends true text rest := by
  cases inner with
  | array =>
    cases h with
    | close h => exact .close (next_unspaced_iff.1 h)
    -- the first element may stand behind white space
    | item hlead hitem h =>
      cases hlead
      exact .item rfl (value_unspaced_iff.1 hitem) h
  | object =>
    cases h with
    | close h => exact .close (next_unspaced_iff.1 h)
    | member hlead hmark hname hcolon hitem h =>
      cases hlead
      exact .member rfl (next_unspaced_iff.1 hmark) hname hcolon hitem h

/-- Whatever ends the containers behind the place where leaving them stopped also ends the
containers behind the value. -/
theorem allEnd_of_leave {containers : List Container} {c c' : Cursor}
    {more : Option (List Container)} (h : leave containers c = .ok more c') {rest : Bytes}
    (hmore : Remains more c'.rest rest) :
    AllEnd containers c.rest rest := by
  -- on the containers from the inside out, since a closing leaves the inner one
  induction containers generalizing c with
  | nil =>
    obtain ⟨rfl, rfl⟩ := pure_eq_ok_iff.1 h
    exact hmore
  | cons inner outer ih =>
    rw [leave] at h
    rcases nil_or_next c.rest with hnil | ⟨ch, t, hnext⟩
    · rw [peek_bind_of_nil hnil] at h
      exact absurd h fail_ne_ok
    rw [peek_bind_of_next hnext] at h
    by_cases hcomma : ch = ','
    -- a comma stays inside, and what remains is one more value and the end of the container
    · subst hcomma
      simp only [if_true] at h
      replace h := (bind_of_ok (advance_of_next hnext)).symm.trans h
      obtain ⟨u, c₁, hinner, h⟩ := bind_eq_ok_iff.1 h
      obtain ⟨rfl, rfl⟩ := pure_eq_ok_iff.1 h
      obtain ⟨mid, hvalue, behind, hends, hall⟩ := hmore
      have hfront := (Container.next_eq_ok_iff.1 hinner).1
      have hlead : Lead false c.rest t := hnext
      exact ⟨behind, Container.ends_of_lead hlead hfront hvalue hends, hall⟩
    · simp only [hcomma, if_false] at h
      split at h
      -- a closing ends the inner container, and the outer ones are left in turn
      · rename_i hclosing
        replace h := (bind_of_ok (advance_of_next hnext)).symm.trans h
        exact ⟨t, Container.ends_of_closing (hclosing ▸ hnext), ih h⟩
      · exact absurd h fail_ne_ok

/-- What an opening leads to makes up a value and the rest of the containers around it. -/
theorem remains_of_enter {inner : Container} {outer : List Container} {text t rest : Bytes}
    {w : List TimeoutWarning} {c' : Cursor} {more : Option (List Container)}
    (hnext : Next inner.opening text t) (h : enter inner outer ⟨unspaced text, w⟩ = .ok more c')
    (hmore : Remains more c'.rest rest) : Remains (some outer) text rest := by
  unfold enter at h
  replace h := (bind_of_ok (advance_of_next hnext)).symm.trans h
  rcases nil_or_next t with hnil | ⟨ch, t', hnext'⟩
  · rw [peek_bind_of_nil hnil] at h
    exact absurd h fail_ne_ok
  rw [peek_bind_of_next hnext'] at h
  -- an empty container is a value at once; else its first value is still to come
  by_cases hclosing : ch = inner.closing
  · simp only [hclosing, if_true] at h
    replace h := (bind_of_ok (advance_of_next hnext')).symm.trans h
    have hends : inner.Ends true t t' := Container.ends_of_closing (hclosing ▸ hnext')
    exact ⟨t', Container.value_of_ends hnext hends, allEnd_of_leave h hmore⟩
  · simp only [hclosing, if_false] at h
    obtain ⟨u, c₁, hinner, h⟩ := bind_eq_ok_iff.1 h
    obtain ⟨rfl, rfl⟩ := pure_eq_ok_iff.1 h
    obtain ⟨mid, hvalue, behind, hends, hall⟩ := hmore
    have hfront := (Container.next_eq_ok_iff.1 hinner).1
    have hlead : Lead true (unspaced t) (unspaced t) := rfl
    have hinside := Container.ends_of_lead hlead hfront hvalue hends
    exact ⟨behind, Container.value_of_ends hnext (Container.ends_of_unspaced hinside), hall⟩

theorem remains_of_round {containers : List Container} {ch : Char} {text t rest : Bytes}
    {w : List TimeoutWarning} {c' : Cursor} {more : Option (List Container)}
    (hnext : Next ch text t) (h : round containers ch ⟨unspaced text, w⟩ = .ok more c')
    (hmore : Remains more c'.rest rest) : Remains (some containers) text rest := by
  unfold round at h
  split at h
  · rename_i hch
    subst hch
    have hopen : Next Container.array.opening text t := hnext
    exact remains_of_enter hopen h hmore
  · split at h
    · rename_i hch
      subst hch
      have hopen : Next Container.object.opening text t := hnext
      exact remains_of_enter hopen h hmore
    · obtain ⟨u, c₁, hscalar, hleave⟩ := bind_eq_ok_iff.1 h
      exact ⟨c₁.rest, scalar_of_skipScalar hnext hscalar, allEnd_of_leave hleave hmore⟩

/-- What passing values leads to makes up a value and the rest of the containers around it. -/
theorem remains_of_skipAlong {clock : Bytes} {containers : List Container} {c c' : Cursor}
    {u : Unit} (h : skipAlong clock containers c = .ok u c') :
    Remains (some containers) c.rest c'.rest := by
  -- each round takes one byte of the clock
  induction clock generalizing containers c with
  | nil => exact absurd h fail_ne_ok
  | cons b clock ih =>
    rcases nil_or_next c.rest with hnil | ⟨ch, t, hnext⟩
    · exact absurd h (skipAlong_of_nil hnil)
    · rw [skipAlong_of_next hnext] at h
      obtain ⟨more, c₁, hround, h⟩ := bind_eq_ok_iff.1 h
      apply remains_of_round hnext hround
      cases more with
      | none =>
        obtain ⟨-, rfl⟩ := pure_eq_ok_iff.1 h
        rfl
      | some containers => exact ih h

/-- What is passed over is a value of the grammar. -/
theorem value_of_skip {c c' : Cursor} {u : Unit} (h : skip c = .ok u c') :
    Value c.rest c'.rest := by
  obtain ⟨mid, hvalue, rfl⟩ := remains_of_skipAlong h
  exact hvalue

/-! ## Every value of the grammar is passed -/

theorem skipScalar_of_digit {ch : Char} (h : ch.isDigit = true) :
    skipScalar ch = scan passNumeral := by
  unfold skipScalar
  split <;> simp_all

/-- A scalar of the grammar is passed, and it opens no container and closes none. -/
theorem exists_next_of_scalar {text rest : Bytes} (h : Scalar (unspaced text) rest) :
    ∃ ch t, Next ch text t ∧ ch ∉ ['[', ']', '\x7b', '\x7d'] ∧
      ∀ w, skipScalar ch ⟨unspaced text, w⟩ = .ok () ⟨rest, w⟩ := by
  have hword (full rest_ : String) (ch : Char) (hchars : full.toList = ch :: rest_.toList)
      (hskip : skipScalar ch = (do advance; word rest_))
      (hch : ch ∉ ['[', ']', '\x7b', '\x7d']) (h : Word full (unspaced text) rest) :
      ∃ ch t, Next ch text t ∧ ch ∉ ['[', ']', '\x7b', '\x7d'] ∧
        ∀ w, skipScalar ch ⟨unspaced text, w⟩ = .ok () ⟨rest, w⟩ := by
    obtain ⟨t, hnext, hscan⟩ := (word_unspaced_iff hchars).1 h
    refine ⟨ch, t, hnext, hch, fun w => ?_⟩
    rw [hskip, bind_of_ok (advance_of_next hnext)]
    exact scan_eq_ok_iff.2 ⟨hscan, rfl⟩
  -- the grammar tells the first character, and that tells what is passed
  generalize htext : unspaced text = front at h
  cases h with
  | word hmem h =>
    subst htext
    simp only [List.mem_cons, List.not_mem_nil, or_false] at hmem
    obtain rfl | rfl | rfl := hmem
    · exact hword "null" "ull" 'n' rfl rfl (by decide) h
    · exact hword "true" "rue" 't' rfl rfl (by decide) h
    · exact hword "false" "alse" 'f' rfl rfl (by decide) h
  | positive h =>
    obtain ⟨b, digits, rfl, hdigit⟩ := exists_digit_of_numeral h
    refine ⟨Char.ofUInt8 b, digits, ⟨b, htext, rfl⟩, ?_, fun w => ?_⟩
    · intro hmem
      simp only [List.mem_cons, List.not_mem_nil, or_false] at hmem
      obtain hch | hch | hch | hch := hmem <;> simp [hch] at hdigit
    · rw [skipScalar_of_digit hdigit]
      exact scan_eq_ok_iff.2 ⟨passNumeral_eq_ok_iff_numeral.2 h, rfl⟩
  | negative hb h =>
    have hnext : Next '-' text _ := ⟨_, htext, hb⟩
    refine ⟨'-', _, hnext, by decide, fun w => ?_⟩
    rw [← htext]
    apply (bind_of_ok (advance_of_next hnext)).trans
    exact scan_eq_ok_iff.2 ⟨passNumeral_eq_ok_iff_numeral.2 h, rfl⟩
  | string hb h =>
    have hnext : Next '"' text _ := ⟨_, htext, hb⟩
    refine ⟨'"', _, hnext, by decide, fun w => ?_⟩
    rw [← htext]
    apply (bind_of_ok (advance_of_next hnext)).trans
    exact scan_eq_ok_iff.2 ⟨passString_eq_ok_iff.2 h, rfl⟩

/-- Where a value stands, no container closes. -/
theorem exists_next_of_value {text rest : Bytes} (h : Value text rest) :
    ∃ ch t, Next ch text t ∧ ∀ inner : Container, ch ≠ inner.closing := by
  cases h with
  | scalar h =>
    obtain ⟨ch, t, hnext, hch, -⟩ := exists_next_of_scalar h
    refine ⟨ch, t, hnext, fun inner => ?_⟩
    rintro rfl
    cases inner <;> exact absurd hch (by decide)
  | array hopen _ => exact ⟨_, _, hopen, by rintro ⟨⟩ <;> decide⟩
  | object hopen _ => exact ⟨_, _, hopen, by rintro ⟨⟩ <;> decide⟩

/-- Goes on behind a value that stands inside the given containers. -/
def onward (clock : Bytes) (containers : List Container) : Reader Unit := do
  resume clock (← leave containers)

/-- The part of `enter` behind the opening. -/
def entered (inner : Container) (outer : List Container) : Reader (Option (List Container)) := do
  match ← peek with
  | none => fail
  | some c =>
    if c = inner.closing then do
      advance
      leave outer
    else do
      inner.next
      return some (inner :: outer)

/-- Goes on inside a container, behind its opening or behind one of its values. -/
def inside (first : Bool) (clock : Bytes) (inner : Container) (outer : List Container) :
    Reader Unit := do
  resume clock (← if first then entered inner outer else leave (inner :: outer))

theorem inside_of_closing {first : Bool} {clock : Bytes} {inner : Container}
    {outer : List Container} {text rest : Bytes} {w : List TimeoutWarning}
    (hclose : Next inner.closing text rest) :
    inside first clock inner outer ⟨text, w⟩ = onward clock outer ⟨rest, w⟩ := by
  cases first with
  -- directly behind the opening the closing is looked for by hand
  | true =>
    have hentered : entered inner outer ⟨text, w⟩ = leave outer ⟨rest, w⟩ := by
      rw [entered, peek_bind_of_next hclose]
      simp only [if_true]
      exact bind_of_ok (advance_of_next hclose)
    exact bind_congr_of_eq hentered
  -- behind a value it is left like any other container
  | false =>
    have hleave : leave (inner :: outer) ⟨text, w⟩ = leave outer ⟨rest, w⟩ := by
      have hcomma : inner.closing ≠ ',' := by cases inner <;> decide
      rw [leave, peek_bind_of_next hclose]
      simp only [hcomma, if_true, if_false]
      exact bind_of_ok (advance_of_next hclose)
    exact bind_congr_of_eq hleave

/-- White space in front of a value makes no difference to passing it. -/
theorem skipAlong_unspaced {clock : Bytes} {containers : List Container} {text t : Bytes}
    {ch : Char} {w : List TimeoutWarning} (hnext : Next ch text t)
    (hclock : text.length ≤ clock.length) :
    skipAlong clock containers ⟨unspaced text, w⟩ = skipAlong clock containers ⟨text, w⟩ := by
  cases clock with
  | nil =>
    have hlt := hnext.length_lt
    rw [List.length_nil] at hclock
    omega
  | cons b clock =>
    have hpassed {front : Bytes} (h : Next ch front t) :
        skipAlong (b :: clock) containers ⟨front, w⟩ =
          (do resume clock (← round containers ch) : Reader Unit) ⟨unspaced front, w⟩ :=
      skipAlong_of_next h
    rw [hpassed (next_unspaced_iff.2 hnext), hpassed hnext, unspaced_unspaced]

/-- A value behind the front of a container is passed inside that container. -/
theorem inside_of_lead {first : Bool} {clock : Bytes} {inner : Container}
    {outer : List Container} {text start item behind : Bytes} {w : List TimeoutWarning}
    (hlead : Lead first text start) (hfront : inner.Front start item) (hitem : Value item behind)
    (hclock : item.length ≤ clock.length) :
    inside first clock inner outer ⟨text, w⟩ = skipAlong clock (inner :: outer) ⟨item, w⟩ := by
  cases first with
  | false =>
    have hcomma : Next ',' text start := hlead
    have hnext : inner.next ⟨start, w⟩ = .ok () ⟨item, w⟩ :=
      Container.next_eq_ok_iff.2 ⟨hfront, rfl⟩
    have hleave : leave (inner :: outer) ⟨text, w⟩ = .ok (some (inner :: outer)) ⟨item, w⟩ := by
      rw [leave, peek_bind_of_next hcomma]
      simp only [if_true]
      apply (bind_of_ok (advance_of_next hcomma)).trans
      rw [bind_of_ok hnext]
      rfl
    exact bind_of_ok hleave
  | true =>
    cases hlead
    -- looking for the closing passes the white space in front of the first value or name
    have hentered {ch : Char} {t item' : Bytes} (hch : ch ≠ inner.closing) (ht : Next ch text t)
        (hfront : inner.Front (unspaced text) item') :
        inside true clock inner outer ⟨text, w⟩ = skipAlong clock (inner :: outer) ⟨item', w⟩ := by
      have hnext : inner.next ⟨unspaced text, w⟩ = .ok () ⟨item', w⟩ :=
        Container.next_eq_ok_iff.2 ⟨hfront, rfl⟩
      have hmore : entered inner outer ⟨text, w⟩ = .ok (some (inner :: outer)) ⟨item', w⟩ := by
        rw [entered, peek_bind_of_next ht]
        simp only [hch, if_false]
        rw [bind_of_ok hnext]
        rfl
      exact bind_of_ok hmore
    -- an element may stand behind white space, a name is looked for behind it anyway
    cases inner with
    | array =>
      cases hfront
      obtain ⟨ch, t, ht, hch⟩ := exists_next_of_value hitem
      exact (hentered (hch .array) ht rfl).trans (skipAlong_unspaced ht hclock)
    | object =>
      obtain ⟨quoted, colon, hmark, hname, hcolon⟩ := hfront
      exact hentered (by decide) hmark ⟨quoted, colon, next_unspaced_iff.2 hmark, hname, hcolon⟩

theorem skipAlong_of_scalar {b : UInt8} {clock : Bytes} {containers : List Container}
    {text rest : Bytes} {w : List TimeoutWarning} (h : Scalar (unspaced text) rest) :
    skipAlong (b :: clock) containers ⟨text, w⟩ = onward clock containers ⟨rest, w⟩ := by
  obtain ⟨ch, t, hnext, hch, hskip⟩ := exists_next_of_scalar h
  simp only [List.mem_cons, List.not_mem_nil, or_false, not_or] at hch
  rw [skipAlong_of_next hnext]
  apply bind_congr_of_eq
  simp only [round, hch, if_false]
  exact bind_of_ok (hskip w)

theorem round_of_opening {inner : Container} {containers : List Container} :
    round containers inner.opening = enter inner containers := by
  cases inner <;> rfl

theorem skipAlong_of_opening {b : UInt8} {clock : Bytes} {containers : List Container}
    {inner : Container} {text t : Bytes} {w : List TimeoutWarning}
    (hopen : Next inner.opening text t) : skipAlong (b :: clock) containers ⟨text, w⟩ =
      inside true clock inner containers ⟨t, w⟩ := by
  rw [skipAlong_of_next hopen, round_of_opening]
  exact bind_congr_of_eq (bind_of_ok (advance_of_next hopen))

/-- The reader goes on behind a value inside the containers, with a clock that is long enough. -/
def GoesOn (r : Reader Unit) (containers : List Container) (text rest : Bytes) : Prop :=
  ∀ w, ∃ clock : Bytes, rest.length ≤ clock.length ∧
    r ⟨text, w⟩ = onward clock containers ⟨rest, w⟩

theorem GoesOn.of_eq {r s : Reader Unit} {containers : List Container} {text item rest : Bytes}
    (h : GoesOn s containers item rest) (heq : ∀ w, r ⟨text, w⟩ = s ⟨item, w⟩) :
    GoesOn r containers text rest := by
  intro w
  rw [heq w]
  exact h w

theorem goesOn_of_scalar {b : UInt8} {clock : Bytes} {containers : List Container}
    {text rest : Bytes} (h : Scalar (unspaced text) rest)
    (hclock : text.length ≤ clock.length + 1) :
    GoesOn (skipAlong (b :: clock) containers) containers text rest := by
  intro w
  have hlt := (Value.scalar h).length_lt
  exact ⟨clock, by omega, skipAlong_of_scalar h⟩

theorem goesOn_of_opening {b : UInt8} {clock : Bytes} {containers : List Container}
    {inner : Container} {text t rest : Bytes} (hopen : Next inner.opening text t)
    (h : GoesOn (inside true clock inner containers) containers t rest) :
    GoesOn (skipAlong (b :: clock) containers) containers text rest :=
  h.of_eq fun _ => skipAlong_of_opening hopen

theorem goesOn_of_closing {first : Bool} {clock : Bytes} {inner : Container}
    {containers : List Container} {text rest : Bytes} (hclose : Next inner.closing text rest)
    (hclock : text.length ≤ clock.length) :
    GoesOn (inside first clock inner containers) containers text rest := by
  intro w
  have hlt := hclose.length_lt
  exact ⟨clock, by omega, inside_of_closing hclose⟩

/-- The rest of a container is passed if the value that comes next is, and what ends the container
behind it is. -/
theorem goesOn_of_lead {first : Bool} {clock : Bytes} {inner : Container}
    {containers : List Container} {text start item behind rest : Bytes}
    (hlead : Lead first text start) (hfront : inner.Front start item) (hitem : Value item behind)
    (hclock : item.length ≤ clock.length)
    (hpassed : GoesOn (skipAlong clock (inner :: containers)) (inner :: containers) item behind)
    (hends : ∀ clock : Bytes, behind.length ≤ clock.length →
      GoesOn (inside false clock inner containers) containers behind rest) :
    GoesOn (inside first clock inner containers) containers text rest := by
  intro w
  -- the clock that is left behind the value is long enough for the rest
  obtain ⟨clock', hclock', heq⟩ := hpassed w
  rw [inside_of_lead hlead hfront hitem hclock, heq]
  exact hends clock' hclock' w

mutual

/-- A value of the grammar is passed, inside any containers. -/
theorem goesOn_of_value : {text rest : Bytes} → Value text rest → {clock : Bytes} →
    {containers : List Container} → text.length ≤ clock.length →
      GoesOn (skipAlong clock containers) containers text rest
  | _, _, h, [], _, hclock => absurd h.length_lt (by rw [List.length_nil] at hclock; omega)
  | _, _, .scalar h, _ :: _, _, hclock => goesOn_of_scalar h hclock
  -- every container takes one byte of the clock for its opening
  | _, _, .array hopen h, b :: clock, containers, hclock => by
    have hlt := hopen.length_lt
    rw [List.length_cons] at hclock
    exact goesOn_of_opening (show Next Container.array.opening _ _ from hopen)
      (goesOn_of_elements h (by omega))
  | _, _, .object hopen h, b :: clock, containers, hclock => by
    have hlt := hopen.length_lt
    rw [List.length_cons] at hclock
    exact goesOn_of_opening (show Next Container.object.opening _ _ from hopen)
      (goesOn_of_members h (by omega))

theorem goesOn_of_elements : {first : Bool} → {text rest : Bytes} → Elements first text rest →
    {clock : Bytes} → {containers : List Container} → text.length ≤ clock.length →
      GoesOn (inside first clock .array containers) containers text rest
  | _, _, _, .close h, _, _, hclock =>
    goesOn_of_closing (show Next Container.array.closing _ _ from h) hclock
  | _, _, _, .item hlead hitem h, clock, containers, hclock => by
    have hstart := hlead.length_le
    have hfront : ∀ item, Container.array.Front item item := fun _ => rfl
    exact goesOn_of_lead hlead (hfront _) hitem (by omega) (goesOn_of_value hitem (by omega))
      fun _ hclock' => goesOn_of_elements h hclock'

theorem goesOn_of_members : {first : Bool} → {text rest : Bytes} → Members first text rest →
    {clock : Bytes} → {containers : List Container} → text.length ≤ clock.length →
      GoesOn (inside first clock .object containers) containers text rest
  | _, _, _, .close h, _, _, hclock =>
    goesOn_of_closing (show Next Container.object.closing _ _ from h) hclock
  | _, _, _, .member hlead hmark hname hcolon hitem h, clock, containers, hclock => by
    have hstart := hlead.length_le
    have hquoted := hmark.length_lt
    have hbehind := hname.length_lt
    have hvalue := hcolon.length_lt
    have hfront : Container.object.Front _ _ := ⟨_, _, hmark, hname, hcolon⟩
    exact goesOn_of_lead hlead hfront hitem (by omega) (goesOn_of_value hitem (by omega))
      fun _ hclock' => goesOn_of_members h hclock'

end

/-- A value is passed over exactly if it is one of the grammar. -/
theorem skip_eq_ok_iff {c c' : Cursor} {u : Unit} :
    skip c = .ok u c' ↔ Value c.rest c'.rest ∧ c'.warnings = c.warnings := by
  -- a value of the grammar is passed up to its end, whatever reads it
  have hpassed {rest : Bytes} (h : Value c.rest rest) : skip c = .ok () ⟨rest, c.warnings⟩ := by
    have hgoes : GoesOn (skipAlong c.rest []) [] c.rest rest := goesOn_of_value h (Nat.le_refl _)
    obtain ⟨clock, -, heq⟩ := hgoes c.warnings
    exact heq
  constructor
  · intro h
    have hvalue := value_of_skip h
    -- there is only one end, since the reader is a function
    have heq := (hpassed hvalue).symm.trans h
    rw [EStateM.Result.ok.injEq] at heq
    exact ⟨hvalue, heq.2 ▸ rfl⟩
  · rintro ⟨h, hwarnings⟩
    obtain ⟨rest, warnings⟩ := c'
    cases hwarnings
    exact hpassed h

/-- A value that is spelled is passed over. -/
theorem skip_of_spelled {json : Json} {text rest : Bytes} {w : List TimeoutWarning}
    (h : json.Spelled text rest) : skip ⟨text, w⟩ = .ok () ⟨rest, w⟩ :=
  skip_eq_ok_iff.2 ⟨h.grammar, rfl⟩

/-- A text is a document exactly if passing over it succeeds. -/
theorem document_iff {text : Bytes} : Document text ↔ (run skip text).value? = some () := by
  rw [Reading.value?_eq_some_iff, run_outcome_eq_ok_iff]
  constructor
  · rintro ⟨rest, h, hspace⟩
    exact ⟨⟨rest, []⟩, skip_eq_ok_iff.2 ⟨h, rfl⟩, unspaced_eq_nil_iff.2 hspace⟩
  · rintro ⟨c, hskip, hspace⟩
    exact ⟨c.rest, (skip_eq_ok_iff.1 hskip).1, unspaced_eq_nil_iff.1 hspace⟩

instance (text : Bytes) : Decidable (Document text) := decidable_of_iff _ document_iff.symm

end CredentialCeremony.Reader
