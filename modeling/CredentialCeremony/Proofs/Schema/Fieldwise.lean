import CredentialCeremony.Proofs.Json.Outline
import CredentialCeremony.Proofs.Schema.Answer
import CredentialCeremony.Proofs.Schema.Strict

set_option autoImplicit false

/-!
# Records, field by field

A record takes its members one after another, in whatever order they come. What it then holds can be
told for each field alone: a field comes from the one member that stands under a name of the field,
or it is absent if none does, and a second such member spoils the record. Members under any other
name have no effect. A record in the form of an array holds its elements in order, and what they
leave out is absent.

The items that give the values may be trees or places in a text, so what gives a value is a
parameter here. Main statements: what is taken member by member is what the fields gather
(`Fields.gathers_iff`), and that is what a tree answers (`Schema.answer?_record_eq_some_iff`) and
what is read off a text where failures are passed over behind values only
(`Schema.exists_outline_of_read`). A field holds what the one item that stands for it gives
(`Fields.Has.given`).
-/

namespace CredentialCeremony

section Members

variable {ι : Type}

/-- The members that stand under a name of a field. -/
def ownMembers (name : String) (aliases : List String) (members : List (String × ι)) :
    List (String × ι) :=
  members.filter fun member => member.1 = name ∨ member.1 ∈ aliases

/-- The members that stand under no name of a field. -/
def otherMembers (name : String) (aliases : List String) (members : List (String × ι)) :
    List (String × ι) :=
  members.filter fun member => ¬ (member.1 = name ∨ member.1 ∈ aliases)

variable {name : String} {aliases : List String} {member : String × ι} {members : List (String × ι)}

@[simp] theorem ownMembers_nil : ownMembers name aliases ([] : List (String × ι)) = [] := rfl

@[simp] theorem otherMembers_nil : otherMembers name aliases ([] : List (String × ι)) = [] := rfl

theorem ownMembers_cons_of_own (h : member.1 = name ∨ member.1 ∈ aliases) :
    ownMembers name aliases (member :: members) = member :: ownMembers name aliases members :=
  List.filter_cons_of_pos (decide_eq_true h)

theorem ownMembers_cons_of_other (h : ¬ (member.1 = name ∨ member.1 ∈ aliases)) :
    ownMembers name aliases (member :: members) = ownMembers name aliases members :=
  List.filter_cons_of_neg (by simpa using h)

theorem otherMembers_cons_of_own (h : member.1 = name ∨ member.1 ∈ aliases) :
    otherMembers name aliases (member :: members) = otherMembers name aliases members := by
  apply List.filter_cons_of_neg
  rw [decide_eq_true_eq, Decidable.not_not]
  exact h

theorem otherMembers_cons_of_other (h : ¬ (member.1 = name ∨ member.1 ∈ aliases)) :
    otherMembers name aliases (member :: members) =
      member :: otherMembers name aliases members :=
  List.filter_cons_of_pos (decide_eq_true h)

/-- The value of the one member of a name. -/
def onlyNamed (name : String) (members : List (String × ι)) : Option ι :=
  match members.filter fun member => member.1 = name with
  | [member] => some member.2
  | _ => none

/-- Leaving out the members of one field leaves those of another name. -/
theorem filter_otherMembers {other : String} {others : List String}
    (h : ¬ (name = other ∨ name ∈ others)) :
    ((otherMembers other others members).filter fun member => member.1 = name) =
      members.filter fun member => member.1 = name := by
  rw [otherMembers, List.filter_filter]
  apply List.filter_congr
  intro member _
  rw [Bool.and_eq_left_iff_imp]
  intro hname
  rw [of_decide_eq_true hname]
  exact decide_eq_true h

theorem lastNamed_otherMembers {other : String} {others : List String}
    (h : ¬ (name = other ∨ name ∈ others)) :
    lastNamed name (otherMembers other others members) = lastNamed name members := by
  rw [lastNamed, filter_otherMembers h, lastNamed]

theorem onlyNamed_otherMembers {other : String} {others : List String}
    (h : ¬ (name = other ∨ name ∈ others)) :
    onlyNamed name (otherMembers other others members) = onlyNamed name members := by
  rw [onlyNamed, filter_otherMembers h, onlyNamed]

/-- The one member of a name is the last. -/
theorem lastNamed_of_ownMembers (h : (ownMembers name [] members).length ≤ 1) :
    lastNamed name members = (ownMembers name [] members).head?.map Prod.snd := by
  have hends (own : List (String × ι)) (hone : own.length ≤ 1) : own.getLast? = own.head? := by
    match own, hone with
    | [], _ => rfl
    | [member], _ => rfl
  simp only [ownMembers, List.not_mem_nil, or_false] at h ⊢
  rw [lastNamed, hends _ h]

end Members

/-! ## What is taken, and what is gathered -/

section Gathering

variable {ι : Type} (gives : {α : Type} → Schema α → ι → α → Prop)

/-- What a field holds: what the item that stands for it gives, or what it has when it is absent. -/
def Presence.Given {α : Type} (presence : Presence α) (gives : ι → α → Prop) : Option ι → α → Prop
  | none, a => presence.absent? = some a
  | some item, a => gives item a

/-- What a field holds in the end, if it holds `known` so far and these are the members that still
come for it. -/
def Presence.Settles {α : Type} (presence : Presence α) (gives : ι → α → Prop) (known : Option α)
    (own : List (String × ι)) (a : α) : Prop :=
  match known with
  | some b => own = [] ∧ a = b
  | none => own.length ≤ 1 ∧ presence.Given gives (own.head?.map Prod.snd) a

/-- A field that has to be there comes from the one member of its name. -/
theorem Presence.settles_required_iff {α : Type} {gives : ι → α → Prop} {name : String}
    {members : List (String × ι)} {a : α} :
    Presence.required.Settles gives none (ownMembers name [] members) a ↔
      ∃ item, onlyNamed name members = some item ∧ gives item a := by
  simp only [Settles, ownMembers, onlyNamed, List.not_mem_nil, or_false]
  generalize members.filter (fun member => member.1 = name) = own
  rcases own with _ | ⟨member, _ | ⟨second, more⟩⟩
  · simp [Given, absent?]
  · simp [Given]
  · simp

namespace Fields

/-- How one more member changes what has been read: it is kept for the first field of its name,
which must not have been read before. -/
def Takes : {τ σ : Type} → Fields τ σ → (given : String) → ι → σ → σ → Prop
  | _, _, .nil, _, _, _, _ => True
  | _, _, .cons name aliases schema _ rest, given, item, (known, read), read' =>
    ((given = name ∨ given ∈ aliases) ∧ known = none ∧
      ∃ a, gives schema item a ∧ read' = (some a, read)) ∨
    (¬ (given = name ∨ given ∈ aliases) ∧
      ∃ taken, rest.Takes given item read taken ∧ read' = (known, taken))

/-- How the members of a record in turn change what has been read. -/
def TakesAll {τ σ : Type} (fields : Fields τ σ) : List (String × ι) → σ → σ → Prop
  | [], read, read' => read = read'
  | member :: members, read, read' =>
    ∃ between, fields.Takes gives member.1 member.2 read between ∧
      fields.TakesAll members between read'

/-- What the fields hold in the end, if `read` has been read so far and these members are still to
come. -/
def Settle : {τ σ : Type} → Fields τ σ → (read : σ) → List (String × ι) → τ → Prop
  | _, _, .nil, _, _, _ => True
  | _, _, .cons name aliases schema presence rest, (known, read), members, (a, parts) =>
    presence.Settles (gives schema) known (ownMembers name aliases members) a ∧
      rest.Settle read (otherMembers name aliases members) parts

/-- What the fields of a record hold if these are its members: each what its one member gives, or
what it has when it is absent. -/
def Gathers {τ σ : Type} (fields : Fields τ σ) (members : List (String × ι)) (parts : τ) : Prop :=
  fields.Settle gives fields.unread members parts

/-- What the fields of a record hold if these are the elements of an array. -/
def Lists : {τ σ : Type} → Fields τ σ → List ι → τ → Prop
  | _, _, .nil, items, _ => items = []
  | _, _, .cons _ _ schema presence rest, items, (a, parts) =>
    presence.Given (gives schema) items.head? a ∧ rest.Lists items.tail parts

/-- What the fields of a record hold that stands as an array or object. -/
def Makes {τ σ : Type} (fields : Fields τ σ) : Outline ι → τ → Prop
  | .array items, parts => fields.Lists gives items parts
  | .object members, parts => fields.Gathers gives members parts

/-- Where no member is left, the record is complete or refused. -/
theorem settle_nil_iff : {τ σ : Type} → (fields : Fields τ σ) → (read : σ) → (parts : τ) →
    (fields.Settle gives read [] parts ↔ fields.complete read = .ok parts)
  | _, _, .nil, _, _ => iff_of_true trivial rfl
  | _, _, .cons name aliases schema presence rest, (known, read), (a, parts) => by
    simp only [Settle, ownMembers_nil, otherMembers_nil, rest.settle_nil_iff read parts, complete]
    -- the field has been read, or it has what it has when it is absent
    have hfield : presence.Settles (gives schema) known [] a ↔
        (known <|> presence.absent?) = some a := by
      cases known with
      | some b => simp [Presence.Settles, eq_comm]
      | none => simp [Presence.Settles, Presence.Given]
    rw [hfield]
    cases known <|> presence.absent? with
    | none => simp
    | some b => cases rest.complete read <;> simp [Except.map]

/-- A member settles what it is taken for, and leaves the rest to those behind it. -/
theorem settle_cons_iff : {τ σ : Type} → (fields : Fields τ σ) → (read : σ) →
    (member : String × ι) → (members : List (String × ι)) → (parts : τ) →
    (fields.Settle gives read (member :: members) parts ↔
      ∃ between, fields.Takes gives member.1 member.2 read between ∧
        fields.Settle gives between members parts)
  | _, _, .nil, _, _, _, _ => by simp [Settle, Takes]
  | _, _, .cons name aliases schema presence rest, (known, read), member, members, (a, parts) => by
    by_cases hown : member.1 = name ∨ member.1 ∈ aliases
    · simp only [Settle, Takes, ownMembers_cons_of_own hown, otherMembers_cons_of_own hown, hown,
        not_true_eq_false, false_and, or_false, true_and]
      cases known with
      -- a second member under the name spoils the record
      | some b => simp [Presence.Settles]
      | none =>
        have hone : (member :: ownMembers name aliases members).length ≤ 1 ↔
            ownMembers name aliases members = [] := by
          rw [List.length_cons, ← List.length_eq_zero_iff]
          omega
        simp only [Presence.Settles, hone]
        constructor
        · rintro ⟨⟨hnone, ha⟩, hrest⟩
          exact ⟨(some a, read), ⟨trivial, a, ha, rfl⟩, ⟨hnone, rfl⟩, hrest⟩
        · rintro ⟨_, ⟨-, b, hb, rfl⟩, ⟨hnone, rfl⟩, hrest⟩
          exact ⟨⟨hnone, hb⟩, hrest⟩
    · simp only [Settle, Takes, ownMembers_cons_of_other hown, otherMembers_cons_of_other hown,
        hown, not_false_eq_true, false_and, false_or, true_and,
        rest.settle_cons_iff read member (otherMembers name aliases members) parts]
      constructor
      · rintro ⟨ha, taken, htaken, hrest⟩
        exact ⟨(known, taken), ⟨taken, htaken, rfl⟩, ha, hrest⟩
      · rintro ⟨_, ⟨taken, htaken, rfl⟩, ha, hrest⟩
        exact ⟨ha, taken, htaken, hrest⟩

theorem settle_iff {τ σ : Type} {fields : Fields τ σ} {read : σ} {members : List (String × ι)}
    {parts : τ} : fields.Settle gives read members parts ↔
      ∃ read', fields.TakesAll gives members read read' ∧ fields.complete read' = .ok parts := by
  induction members generalizing read with
  | nil => simp [settle_nil_iff, TakesAll]
  | cons member members ih =>
    simp only [settle_cons_iff, ih, TakesAll]
    grind

/-- What is taken member by member is, when the record is complete, what its fields gather. -/
theorem gathers_iff {τ σ : Type} {fields : Fields τ σ} {members : List (String × ι)} {parts : τ} :
    fields.Gathers gives members parts ↔ ∃ read, fields.TakesAll gives members fields.unread read ∧
      fields.complete read = .ok parts :=
  settle_iff gives

theorem lists_nil_iff : {τ σ : Type} → (fields : Fields τ σ) → (parts : τ) →
    (fields.Lists gives [] parts ↔ fields.absent? = some parts)
  | _, _, .nil, _ => iff_of_true rfl rfl
  | _, _, .cons _ _ _ presence rest, (a, parts) => by
    rw [Lists, List.head?_nil, List.tail_nil, rest.lists_nil_iff parts, Presence.Given, absent?]
    cases presence.absent? <;> cases rest.absent? <;> simp

/-- A record has this field at this position, under this name only, and `part` is the field. -/
inductive Has {α : Type} (name : String) (schema : Schema α) (presence : Presence α) :
    {τ σ : Type} → Fields τ σ → (index : Nat) → (part : τ → α) → Prop where
  | here {τ σ : Type} {rest : Fields τ σ} :
      Has name schema presence (.cons name [] schema presence rest) 0 Prod.fst
  | there {β τ σ : Type} {other : String} {aliases : List String} {s : Schema β} {p : Presence β}
      {rest : Fields τ σ} {index : Nat} {part : τ → α} : ¬ (name = other ∨ name ∈ aliases) →
      Has name schema presence rest index part →
      Has name schema presence (.cons other aliases s p rest) (index + 1) fun parts => part parts.2

/-- A field holds what the one item that stands for it gives. -/
theorem Has.given {α τ σ : Type} {name : String} {schema : Schema α} {presence : Presence α}
    {fields : Fields τ σ} {index : Nat} {part : τ → α}
    (h : fields.Has name schema presence index part) {o : Outline ι} {parts : τ}
    (hmakes : fields.Makes gives o parts) :
    presence.Given (gives schema) (o.field? name index) (part parts) := by
  -- each field in front takes its own items away
  induction h generalizing o with
  | here =>
    cases o with
    | array items =>
      rw [Outline.field?, ← List.head?_eq_getElem?]
      exact hmakes.1
    | object members =>
      obtain ⟨⟨hone, hgiven⟩, -⟩ := hmakes
      rw [Outline.field?, lastNamed_of_ownMembers hone]
      exact hgiven
  | there hname _ ih =>
    cases o with
    | array items =>
      have hrest := ih (o := .array items.tail) hmakes.2
      rw [Outline.field?, List.getElem?_tail] at hrest
      exact hrest
    | object members =>
      have hrest := ih (o := .object _) hmakes.2
      rw [Outline.field?, lastNamed_otherMembers hname] at hrest
      exact hrest

end Fields

end Gathering

/-! ## Records in a tree -/

/-- The value is what the tree answers for the schema. -/
def Schema.Answers {α : Type} (s : Schema α) (json : Json) (a : α) : Prop :=
  (s.extract json).answer? = some a

open Extractor

variable {τ σ α : Type}

/-- A member of a tree is taken for what it answers. -/
theorem Fields.answer?_extractMember : {τ σ : Type} → (fields : Fields τ σ) → (given : String) →
    (json : Json) → (read read' : σ) →
    ((fields.extractMember given json read).answer? = some read' ↔
      fields.Takes Schema.Answers given json read read')
  | _, _, .nil, _, _, _, _ => iff_of_true rfl trivial
  | _, _, .cons name aliases schema presence rest, given, json, (known, read), read' => by
    simp only [Fields.extractMember, Fields.Takes]
    by_cases hown : given = name ∨ given ∈ aliases
    · simp only [hown, if_true, not_true_eq_false, false_and, or_false, true_and]
      cases known with
      | some b => simp
      | none =>
        simp only [answer?_map, Option.map_eq_some_iff, Schema.Answers, eq_comm (a := read'),
          true_and]
    · simp only [hown, if_false, not_false_eq_true, false_and, false_or, true_and, answer?_map,
        Option.map_eq_some_iff, rest.answer?_extractMember given json read, eq_comm (a := read')]

theorem Fields.answer?_overMembers {fields : Fields τ σ} {members : List (String × Json)}
    {start read : σ} : (Reader.overMembers fields.extractMember members start).answer? = some read ↔
      fields.TakesAll Schema.Answers members start read := by
  induction members generalizing start with
  | nil => simp [Reader.overMembers, TakesAll]
  | cons member members ih =>
    have hstep : Reader.overMembers fields.extractMember (member :: members) start =
        fields.extractMember member.1 member.2 start >>=
          Reader.overMembers fields.extractMember members := rfl
    rw [hstep, answer?_bind fun s => logs_overMembers fields.extractMember_logs members s]
    simp only [Option.bind_eq_some_iff, fields.answer?_extractMember, ih, TakesAll]

theorem Schema.answer?_object_eq_some_iff {fields : Fields τ σ} {layout : Layout τ α}
    {members : List (String × Json)} {a : α} :
    ((Schema.record fields layout).extract (.object members)).answer? = some a ↔
      ∃ parts, fields.Gathers Schema.Answers members parts ∧ layout.build parts = a := by
  have hrecord : (Schema.record fields layout).extract (.object members) = do
      let read ← Reader.overMembers fields.extractMember members fields.unread
      return layout.build (← Extractor.ofExcept (fields.complete read)) := rfl
  have hlogs (read : σ) :
      (do return layout.build (← Extractor.ofExcept (fields.complete read)) : Extractor α).Logs :=
    (logs_ofExcept _).bind fun parts => logs_pure _
  rw [hrecord, answer?_bind hlogs]
  simp only [Option.bind_eq_some_iff, Fields.answer?_overMembers, answer?_map, Option.map_eq_some_iff,
    answer?_ofExcept, Fields.gathers_iff]
  constructor
  · rintro ⟨read, htakes, parts, hparts, rfl⟩
    refine ⟨parts, ⟨read, htakes, ?_⟩, rfl⟩
    cases hcomplete : fields.complete read <;> simp_all [Except.toOption]
  · rintro ⟨parts, ⟨read, htakes, hcomplete⟩, rfl⟩
    exact ⟨read, htakes, parts, by rw [hcomplete]; rfl, rfl⟩

theorem Fields.answer?_extractElements : {τ σ : Type} → (fields : Fields τ σ) →
    (items : List Json) → (parts : τ) →
    ((fields.extractElements items).answer? = some parts ↔
      fields.Lists Schema.Answers items parts)
  | _, _, .nil, items, _ => by
    cases items <;> simp [Fields.extractElements, Fields.Lists, fail]
  | _, _, .cons name aliases schema presence rest, [], (a, parts) => by
    rw [Fields.lists_nil_iff, Fields.extractElements, Fields.absent?]
    cases presence.absent? with
    | none => simp [fail]
    | some b => cases rest.absent? <;> simp [fail]
  | _, _, .cons _ _ schema _ rest, json :: items, (a, parts) => by
    rw [Fields.extractElements, answer?_bind fun b =>
      (rest.extractElements_logs items).bind fun others => logs_pure _]
    simp only [Fields.Lists, List.head?_cons, List.tail_cons, Presence.Given, answer?_map,
      Option.bind_eq_some_iff, Option.map_eq_some_iff, rest.answer?_extractElements items,
      Schema.Answers, Prod.mk.injEq]
    grind

theorem Schema.answer?_array_eq_some_iff {fields : Fields τ σ} {layout : Layout τ α}
    {items : List Json} {a : α} :
    ((Schema.record fields layout).extract (.array items)).answer? = some a ↔
      ∃ parts, fields.Lists Schema.Answers items parts ∧ layout.build parts = a := by
  rw [Schema.extract, answer?_map, Option.map_eq_some_iff]
  simp only [fields.answer?_extractElements]

/-- A tree answers the record that its outline makes. -/
theorem Schema.answer?_record_eq_some_iff {fields : Fields τ σ} {layout : Layout τ α}
    {json : Json} {a : α} : ((Schema.record fields layout).extract json).answer? = some a ↔
      ∃ o parts, json.outline? = some o ∧ fields.Makes Schema.Answers o parts ∧
        layout.build parts = a := by
  cases json with
  | array items => simp [answer?_array_eq_some_iff, Json.outline?, Fields.Makes]
  | object members => simp [answer?_object_eq_some_iff, Json.outline?, Fields.Makes]
  | _ => simp [Schema.extract, fail, Json.outline?]

/-! ## Records in a text -/

open Reader Grammar

/-- The value is read at the place, where failures are passed over behind values only. -/
def Schema.ReadsAt (depth : Nat) {α : Type} (s : Schema α) (item : Bytes) (a : α) : Prop :=
  ∃ start w c', unspaced start = unspaced item ∧ s.read .behindValue depth ⟨start, w⟩ = .ok a c'

/-- A member of a text is taken for what is read at its value. -/
theorem Fields.takes_of_readMember {depth : Nat} : {τ σ : Type} → {fields : Fields τ σ} →
    {given : String} → {read read' : σ} → {c c' : Cursor} →
    fields.readMember .behindValue depth given read c = .ok read' c' →
    ∃ item, Next ':' c.rest item ∧
      fields.Takes (Schema.ReadsAt depth) given item read read'
  | _, _, .nil, _, _, _, _, _, h => by
    obtain ⟨item, hcolon, -⟩ := readMember_nil_eq_ok_iff.1 h
    exact ⟨item, hcolon, trivial⟩
  | _, _, .cons _ _ _ _ _, _, (_, _), _, _, _, h => by
    rcases readMember_cons_eq_ok_iff.1 h with
      ⟨hown, hnone, item, a, hcolon, ha, hread⟩ | ⟨hother, taken, htaken, hread⟩
    · exact ⟨item, hcolon, .inl ⟨hown, hnone, a, ⟨item, _, _, rfl, ha⟩, hread⟩⟩
    · obtain ⟨item, hcolon, htakes⟩ := Fields.takes_of_readMember htaken
      exact ⟨item, hcolon, .inr ⟨hother, taken, htakes, hread⟩⟩

/-- What a loop over the members of a record takes, they take. -/
theorem Fields.takesAll_of_memberRounds {fields : Fields τ σ} {depth : Nat} {first : Bool}
    {c c₁ c' : Cursor} {names : List String} {read read' : σ}
    (hrounds : MemberRounds (fun name read => fields.readMember .behindValue depth name read)
      first read c names read' c₁) (hclose : closeObject c₁ = .ok () c') :
    ∃ members, MembersAt members first c.rest c'.rest ∧
      fields.TakesAll (Schema.ReadsAt depth) members read read' := by
  induction names generalizing first c read with
  | nil =>
    obtain ⟨rfl, -, rfl⟩ := hrounds
    obtain ⟨rest, hbrace, rfl⟩ := closeObject_eq_ok_iff.1 hclose
    exact ⟨[], next_unspaced_iff.1 hbrace, rfl⟩
  | cons name names ih =>
    obtain ⟨start, quoted, colon, between, c₂, hlead, hmark, hname, hmember, hrounds⟩ := hrounds
    obtain ⟨item, hcolon, htakes⟩ := Fields.takes_of_readMember hmember
    -- whatever the member is taken for, it is a value of the grammar
    obtain ⟨_, hcolon', hvalue⟩ := Fields.member_sound fields depth _ _ _ _ _ hmember
    obtain ⟨-, rfl⟩ := hcolon.unique hcolon'
    obtain ⟨members, hmembers, hall⟩ := ih hrounds
    exact ⟨(name, item) :: members,
      ⟨start, quoted, colon, c₂.rest, hlead, hmark, hname, hcolon, hvalue, hmembers⟩,
      between, htakes, hall⟩

/-- What is read off the elements of an array, they list. -/
theorem Fields.lists_of_readElements {depth : Nat} : {τ σ : Type} → {fields : Fields τ σ} →
    {first : Bool} → {c c₁ c' : Cursor} → {parts : τ} →
    fields.readElements .behindValue depth first c = .ok parts c₁ → closeArray c₁ = .ok () c' →
    ∃ items, ElementsAt items first c.rest c'.rest ∧
      fields.Lists (Schema.ReadsAt depth) items parts
  | _, _, .nil, _, _, _, _, _, hread, hclose => by
    obtain ⟨-, rfl⟩ := pure_eq_ok_iff.1 hread
    obtain ⟨rest, hbracket, rfl⟩ := closeArray_eq_ok_iff.1 hclose
    exact ⟨[], hbracket, rfl⟩
  | _, _, .cons _ _ schema _ others, _, _, _, _, _, hread, hclose => by
    rcases readElements_cons_eq_ok_iff.1 hread with
      ⟨t, -, a, parts, ha, hparts, rfl, rfl⟩ | ⟨item, -, hlead, a, c₂, ha, parts, hparts, rfl⟩
    · obtain ⟨rest, hbracket, rfl⟩ := closeArray_eq_ok_iff.1 hclose
      have hothers : others.Lists (Schema.ReadsAt depth) [] parts :=
        (Fields.lists_nil_iff _ others parts).2 hparts
      exact ⟨[], next_unspaced_iff.1 hbracket, ha, hothers⟩
    · have hvalue := value_unspaced_iff.1 (Schema.sound schema depth _ _ _ ha)
      obtain ⟨items, hitems, hlists⟩ := Fields.lists_of_readElements hparts hclose
      exact ⟨item :: items, ⟨hlead, c₂.rest, hvalue, hitems⟩,
        ⟨unspaced item, _, _, unspaced_unspaced item, ha⟩, hlists⟩

/-- A record that is read off a text, where failures are passed over behind values only, is the one
that the outline of the text makes. -/
theorem Schema.exists_outline_of_read {fields : Fields τ σ} {layout : Layout τ α} {depth : Nat}
    {c c' : Cursor} {a : α}
    (h : (Schema.record fields layout).read .behindValue depth c = .ok a c') :
    ∃ d o parts, depth = d + 1 ∧ o.At c.rest c'.rest ∧ fields.Makes (Schema.ReadsAt d) o parts ∧
      layout.build parts = a := by
  obtain ⟨d, parts, t, c₁, rfl, rfl, ⟨read, hnext, hloop, hcomplete, hclose⟩ |
    ⟨hnext, hparts, hclose⟩⟩ := read_record_eq_ok_iff.1 h
  · obtain ⟨names, hrounds, -⟩ := members_eq_ok_iff.1 hloop
    obtain ⟨members, hmembers, hall⟩ := Fields.takesAll_of_memberRounds hrounds hclose
    have hgathers := (Fields.gathers_iff _).2 ⟨read, hall, hcomplete⟩
    exact ⟨d, .object members, parts, rfl, ⟨t, hnext, hmembers⟩, hgathers, rfl⟩
  · obtain ⟨items, hitems, hlists⟩ := Fields.lists_of_readElements hparts hclose
    exact ⟨d, .array items, parts, rfl, ⟨t, hnext, hitems⟩, hlists, rfl⟩

end CredentialCeremony
