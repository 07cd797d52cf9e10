import CredentialCeremony.Proofs.Json.Kept
import CredentialCeremony.Proofs.Reading.Onward
import CredentialCeremony.Proofs.Schema.Field

set_option autoImplicit false

/-!
# Documents are read onward

Reading a value directly leaves an end of the text, whichever way it ends (`Schema.read_onward`). So
even a reader that has gone astray sees the items of a record in its text, and what the record then
holds in a field was read at the item that it saw for it (`Schema.HasField.of_readText`).
-/

namespace CredentialCeremony

open Grammar

namespace Reader

variable {α : Type}

theorem Onward.nested {depth : Nat} {body : Nat → Reader α} (h : ∀ depth, Onward (body depth)) :
    Onward (nested depth body) := by
  cases depth with
  | zero => exact fail_onward
  | succ depth => exact advance_onward.bind fun _ => h depth

theorem string_onward : Onward Reader.string := by
  apply peek_onward.bind
  intro o
  split
  · exact advance_onward.bind fun _ => stringBody_onward
  · exact fail_onward

theorem flag_onward : Onward Reader.flag := by
  apply peek_onward.bind
  intro o
  split
  · exact advance_onward.bind fun _ => (word_onward _).bind fun _ => pure_onward true
  · exact advance_onward.bind fun _ => (word_onward _).bind fun _ => pure_onward false
  · exact fail_onward

theorem number_onward : Onward number := by
  apply peek_onward.bind
  intro o
  split
  · exact advance_onward.bind fun _ => numeral_onward true
  · split
    · exact numeral_onward false
    · exact fail_onward
  · exact fail_onward

theorem ofNumber_onward (x : Json → Extractor α) : Onward (ofNumber x) :=
  number_onward.bind fun n => extract_onward (x (.number n))

theorem array_onward {depth : Nat} {element : Nat → Reader α} (h : ∀ depth, Onward (element depth)) :
    Onward (array depth element) := by
  apply peek_onward.bind
  intro o
  split
  · refine .nested fun depth => (h depth).elements.bind fun items => ?_
    exact closeArray_onward.bind fun _ => pure_onward items
  · exact fail_onward

theorem bytes_onward (depth : Nat) : Onward (Reader.bytes depth) := by
  apply peek_onward.bind
  intro o
  split
  · exact advance_onward.bind fun _ => stringBody_onward.bind fun _ => extract_onward _
  · exact array_onward fun _ => ofNumber_onward Extractor.byte
  · exact fail_onward

theorem timeout_onward (mode : Resumption) (depth : Nat) : Onward (Reader.timeout mode depth) := by
  refine ((value_onward depth).tolerate mode).bind fun tried => ?_
  cases tried with
  | ok json => exact extract_onward (Extractor.timeout json)
  | error e => exact (warn_onward .notAScalar).bind fun _ => pure_onward none

theorem unexpected_onward : Onward (unexpected : Reader α) := by
  apply peek_onward.bind_option fail_onward
  intro ch
  simp only
  cases hscalar : scalar? ch with
  | some r => exact (scalar?_onward hscalar).bind fun _ => fail_onward
  | none => exact fail_onward

theorem choiceName_onward : Onward choiceName := by
  apply peek_onward.bind
  intro o
  split
  · exact advance_onward.bind fun _ => stringBody_onward
  · exact unexpected_onward

theorem choiceNull_onward : Onward choiceNull := by
  apply peek_onward.bind
  intro o
  split
  · exact advance_onward.bind fun _ => word_onward _
  · exact unexpected_onward

theorem choice_onward (depth : Nat) (ch : Choice α) : Onward (choice depth ch) := by
  apply peek_onward.bind
  intro o
  split
  · exact advance_onward.bind fun _ => stringBody_onward.bind fun _ => extract_onward _
  · refine .nested fun _ => choiceName_onward.bind fun name => ?_
    refine (extract_onward _).bind fun a => colon_onward.bind fun _ => ?_
    exact choiceNull_onward.bind fun _ => closeObject_onward.bind fun _ => pure_onward a
  · exact fail_onward

theorem Onward.nullable {r : Reader α} (h : Onward r) : Onward (nullable r) := by
  apply peek_onward.bind
  intro o
  split
  · exact advance_onward.bind fun _ => (word_onward _).bind fun _ => pure_onward none
  · exact h.bind fun a => pure_onward (some a)

theorem Onward.orElse {r : Reader α} (h : Onward r) (mode : Resumption) (default : α) :
    Onward (orElse mode r default) := by
  refine (h.tolerate mode).bind fun tried => ?_
  cases tried with
  | ok a => exact pure_onward a
  | error e => exact pure_onward default

end Reader

open Reader

mutual

/-- Wherever reading a value ends, it leaves an end of the text. -/
theorem Schema.read_onward (mode : Resumption) :
    {α : Type} → (s : Schema α) → (depth : Nat) → Onward (s.read mode depth)
  | _, .string, _ => string_onward
  | _, .bytes, depth => bytes_onward depth
  | _, .flag, _ => flag_onward
  | _, .word, _ => ofNumber_onward Extractor.word
  | _, .integer, _ => ofNumber_onward Extractor.integer
  | _, .timeout, depth => timeout_onward mode depth
  | _, .spelled _, _ => string_onward.bind fun _ => extract_onward _
  | _, .choice c, depth => choice_onward depth c
  | _, .lenient c default, depth => (choice_onward depth c).orElse mode default
  | _, .lenientOption c, depth => (choice_onward depth c).nullable.orElse mode none
  | _, .nullable s, depth => (s.read_onward mode depth).nullable
  | _, .list s, _ => array_onward (s.read_onward mode)
  | _, .tolerant _, _ => (array_onward value_onward).bind fun _ => extract_onward _
  | _, .listOrNull s, depth => (s.read_onward mode depth).nullable.bind fun _ => pure_onward _
  | _, .dictionary, _ => by
    apply peek_onward.bind
    intro o
    split
    · refine .nested fun _ => (members_onward (fun name d => ?_) _).bind fun d => ?_
      · exact colon_onward.bind fun _ => string_onward.bind fun s => pure_onward (d.insert name s)
      · exact closeObject_onward.bind fun _ => pure_onward d
    · exact fail_onward
  | _, .record fields layout, depth => by
    apply peek_onward.bind
    intro o
    split
    · refine .nested fun depth => (members_onward (fields.readMember_onward mode depth) _).bind ?_
      exact fun _ => (extract_onward _).bind fun _ => closeObject_onward.bind fun _ => pure_onward _
    · refine .nested fun depth => (fields.readElements_onward mode depth true).bind fun _ => ?_
      exact closeArray_onward.bind fun _ => pure_onward _
    · exact fail_onward
  | _, .extensible name known, depth => by
    apply peek_onward.bind
    intro o
    split
    · refine .nested fun depth => (members_onward (fun given read => ?_) _).bind fun _ => ?_
      · split
        · split
          · exact throw_onward _
          · refine colon_onward.bind fun _ => (known.read_onward mode depth).nullable.bind ?_
            exact fun _ => pure_onward _
        · exact colon_onward.bind fun _ => (value_onward depth).bind fun _ => pure_onward _
      · exact closeObject_onward.bind fun _ => pure_onward _
    · exact fail_onward

theorem Fields.readMember_onward (mode : Resumption) : {τ σ : Type} → (fields : Fields τ σ) →
    (depth : Nat) → (given : String) → (read : σ) →
    Onward (fields.readMember mode depth given read)
  | _, _, .nil, _, _, _ => colon_onward.bind fun _ => skip_onward.bind fun _ => pure_onward _
  | _, _, .cons name aliases schema _ rest, depth, given, (read, others) => by
    simp only [Fields.readMember]
    split
    · cases read with
      | some a => exact throw_onward _
      | none =>
        refine colon_onward.bind fun _ => (schema.read_onward mode depth).bind fun _ => ?_
        exact pure_onward _
    · exact (rest.readMember_onward mode depth given others).bind fun _ => pure_onward _

theorem Fields.readElements_onward (mode : Resumption) : {τ σ : Type} → (fields : Fields τ σ) →
    (depth : Nat) → (first : Bool) → Onward (fields.readElements mode depth first)
  | _, _, .nil, _, _ => pure_onward ()
  | _, _, .cons _ _ schema presence rest, depth, first => by
    refine (nextElement_onward first).bind fun more => ?_
    cases more with
    | true =>
      refine (schema.read_onward mode depth).bind fun a => ?_
      exact (rest.readElements_onward mode depth false).bind fun others => pure_onward (a, others)
    | false =>
      cases presence.absent? with
      | none => exact fail_onward
      | some a =>
        cases rest.absent? with
        | none => exact fail_onward
        | some others => exact pure_onward (a, others)

end

/-! ## What a reader sees of a record -/

/-- All items are parts of the text. -/
def Outline.PartsOf (text : Bytes) : Outline Bytes → Prop
  | .array items => ∀ item ∈ items, item <:+ text
  | .object members => ∀ member ∈ members, member.2 <:+ text

theorem Outline.PartsOf.field? {text item : Bytes} {o : Outline Bytes} (h : o.PartsOf text)
    {name : String} {index : Nat} (hitem : o.field? name index = some item) : item <:+ text := by
  cases o with
  | array items => exact h item (List.mem_of_getElem? hitem)
  | object members => exact h (name, item) (mem_of_lastNamed hitem)

/-- The value is read at the place, where a failure leaves the reader in its place. -/
def Schema.ReadsFrom (depth : Nat) {α : Type} (s : Schema α) (item : Bytes) (a : α) : Prop :=
  ∃ w c', s.read .inPlace depth ⟨item, w⟩ = .ok a c'

variable {α β τ σ : Type}

/-- A member is taken for what is read behind its colon. -/
theorem Fields.takes_of_readInPlace {depth : Nat} : {τ σ : Type} → {fields : Fields τ σ} →
    {given : String} → {read read' : σ} → {c c' : Cursor} →
    fields.readMember .inPlace depth given read c = .ok read' c' →
    ∃ item, Next ':' c.rest item ∧ fields.Takes (Schema.ReadsFrom depth) given item read read'
  | _, _, .nil, _, _, _, _, _, h => by
    obtain ⟨item, hcolon, -⟩ := readMember_nil_eq_ok_iff.1 h
    exact ⟨item, hcolon, trivial⟩
  | _, _, .cons _ _ _ _ _, _, (_, _), _, _, _, h => by
    rcases readMember_cons_eq_ok_iff.1 h with
      ⟨hown, hnone, item, a, hcolon, ha, hread⟩ | ⟨hother, taken, htaken, hread⟩
    · exact ⟨item, hcolon, .inl ⟨hown, hnone, a, ⟨_, _, ha⟩, hread⟩⟩
    · obtain ⟨item, hcolon, htakes⟩ := Fields.takes_of_readInPlace htaken
      exact ⟨item, hcolon, .inr ⟨hother, taken, htakes, hread⟩⟩

/-- What a loop over members takes are members in the text. -/
theorem Fields.takesAll_of_roundsInPlace {fields : Fields τ σ} {depth : Nat} {first : Bool}
    {c c₁ : Cursor} {names : List String} {read read' : σ}
    (hrounds : MemberRounds (fun name read => fields.readMember .inPlace depth name read)
      first read c names read' c₁) :
    ∃ members : List (String × Bytes), (∀ member ∈ members, member.2 <:+ c.rest) ∧
      fields.TakesAll (Schema.ReadsFrom depth) members read read' := by
  induction names generalizing first c read with
  | nil =>
    obtain ⟨rfl, -, -⟩ := hrounds
    exact ⟨[], by simp, rfl⟩
  | cons name names ih =>
    obtain ⟨start, quoted, colon, between, c₂, hlead, hmark, hname, hmember, hrounds⟩ := hrounds
    obtain ⟨item, hcolon, htakes⟩ := Fields.takes_of_readInPlace hmember
    obtain ⟨members, hmembers, hall⟩ := ih hrounds
    have hbehind : colon <:+ c.rest := (hname.suffix.trans hmark.suffix).trans hlead.suffix
    refine ⟨(name, item) :: members, List.forall_mem_cons.2 ⟨hcolon.suffix.trans hbehind, ?_⟩,
      between, htakes, hall⟩
    -- the members behind stand where this one has left the reader
    have hleft : c₂.rest <:+ colon := (fields.readMember_onward _ depth name read).of_ok hmember
    exact fun member hmem => (hmembers member hmem).trans (hleft.trans hbehind)

theorem Fields.lists_of_readInPlace {depth : Nat} : {τ σ : Type} → {fields : Fields τ σ} →
    {first : Bool} → {c c₁ : Cursor} → {parts : τ} →
    fields.readElements .inPlace depth first c = .ok parts c₁ →
    ∃ items : List Bytes, (∀ item ∈ items, item <:+ c.rest) ∧
      fields.Lists (Schema.ReadsFrom depth) items parts
  | _, _, .nil, _, _, _, _, _ => ⟨[], by simp, rfl⟩
  | _, _, .cons _ _ schema _ others, _, _, _, _, hread => by
    rcases readElements_cons_eq_ok_iff.1 hread with
      ⟨t, -, a, parts, ha, hparts, rfl, -⟩ | ⟨item, -, hlead, a, c₂, ha, parts, hparts, rfl⟩
    · exact ⟨[], by simp, ha, (Fields.lists_nil_iff _ others parts).2 hparts⟩
    · obtain ⟨items, hitems, hlists⟩ := Fields.lists_of_readInPlace hparts
      have hitem : unspaced item <:+ _ := (List.dropWhile_suffix _).trans hlead.suffix
      have hleft : c₂.rest <:+ unspaced item := (schema.read_onward _ depth).of_ok ha
      refine ⟨unspaced item :: items, List.forall_mem_cons.2 ⟨hitem, ?_⟩, ⟨_, _, ha⟩, hlists⟩
      exact fun item' hmem => (hitems item' hmem).trans (hleft.trans hitem)

/-- A record that is read off a text is the one that parts of the text make. -/
theorem Schema.exists_parts_of_read {fields : Fields τ σ} {layout : Layout τ α} {depth : Nat}
    {c c' : Cursor} {a : α} (h : (Schema.record fields layout).read .inPlace depth c = .ok a c') :
    ∃ d o parts, Outline.PartsOf c.rest o ∧ fields.Makes (Schema.ReadsFrom d) o parts ∧
      layout.build parts = a := by
  obtain ⟨d, parts, t, c₁, -, rfl, ⟨read, hnext, hloop, hcomplete, -⟩ | ⟨hnext, hparts, -⟩⟩ :=
    read_record_eq_ok_iff.1 h
  · obtain ⟨names, hrounds, -⟩ := members_eq_ok_iff.1 hloop
    obtain ⟨members, hmembers, hall⟩ := Fields.takesAll_of_roundsInPlace hrounds
    have hgathers := (Fields.gathers_iff _).2 ⟨read, hall, hcomplete⟩
    refine ⟨d, .object members, parts, ?_, hgathers, rfl⟩
    exact fun member hmem => (hmembers member hmem).trans hnext.suffix
  · obtain ⟨items, hitems, hlists⟩ := Fields.lists_of_readInPlace hparts
    refine ⟨d, .array items, parts, ?_, hlists, rfl⟩
    exact fun item hmem => (hitems item hmem).trans hnext.suffix

/-- Whatever the text is that a record is read off directly, the field is read at a part of it, or the
record has what it has without the field. -/
theorem Schema.HasField.of_readText {s : Schema α} {name : String} {schema : Schema β}
    {presence : Presence β} {index : Nat} {get : α → β}
    (h : s.HasField name schema presence index get) {text : Bytes} {a : α}
    (ha : (s.readText text).value? = some a) :
    ∃ item : Option Bytes, (∀ place ∈ item, place <:+ text) ∧
      ∃ depth, presence.Given (schema.ReadsFrom depth) item (get a) := by
  obtain ⟨τ, σ, fields, layout, part, rfl, hhas, hget⟩ := h
  obtain ⟨c, hread, -⟩ := Reader.run_outcome_eq_ok_iff.1 (Reading.value?_eq_some_iff.1 ha)
  obtain ⟨d, o, parts, hparts, hmakes, rfl⟩ := Schema.exists_parts_of_read hread
  have hgiven := hhas.given (Schema.ReadsFrom d) hmakes
  exact ⟨o.field? name index, fun place hplace => hparts.field? hplace, d, hget parts ▸ hgiven⟩

end CredentialCeremony
