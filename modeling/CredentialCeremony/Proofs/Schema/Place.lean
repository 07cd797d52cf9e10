import CredentialCeremony.Proofs.Schema.Fieldwise
import CredentialCeremony.Proofs.Traversal

set_option autoImplicit false

/-!
# Places in a document

A place in a document is a document with a hole: a value of one type is to stand there, as an element
of a list, a member of a record and so on, within other values. `Schema.Inside` is one step of this
and `Schema.Place` any number of them. What is read for the whole is, in the same way, a value with a
hole for what is read at the place (`Schema.Frame`, `Schema.Context`).

Main statements: each step hands on what is read at its place and nothing else
(`Schema.Inside.hands`), an entry of a tolerant list apart, which is dropped if it cannot be read;
so documents that differ only at one place, where the same is read, are read as the same
(`Schema.Place.congr`).
-/

namespace CredentialCeremony

variable {ι α β γ τ σ κ : Type}

/-! ## Fields by their names and by their positions -/

/-- The first field that is read under this name has this schema, and `part` is the field. -/
inductive Fields.Selects (given : String) (schema : Schema γ) :
    {τ σ : Type} → Fields τ σ → (part : τ → γ) → Prop where
  | here {τ σ : Type} {name : String} {aliases : List String} {presence : Presence γ}
      {rest : Fields τ σ} : given = name ∨ given ∈ aliases →
      Selects given schema (.cons name aliases schema presence rest) Prod.fst
  | there {α τ σ : Type} {name : String} {aliases : List String} {s : Schema α}
      {presence : Presence α} {rest : Fields τ σ} {part : τ → γ} :
      ¬ (given = name ∨ given ∈ aliases) → Selects given schema rest part →
      Selects given schema (.cons name aliases s presence rest) fun parts => part parts.2

/-- The field at this position has this schema, and `part` is the field. -/
inductive Fields.At (schema : Schema γ) :
    {τ σ : Type} → Fields τ σ → (index : Nat) → (part : τ → γ) → Prop where
  | here {τ σ : Type} {name : String} {aliases : List String} {presence : Presence γ}
      {rest : Fields τ σ} : At schema (.cons name aliases schema presence rest) 0 Prod.fst
  | there {α τ σ : Type} {name : String} {aliases : List String} {s : Schema α}
      {presence : Presence α} {rest : Fields τ σ} {index : Nat} {part : τ → γ} :
      At schema rest index part →
      At schema (.cons name aliases s presence rest) (index + 1) fun parts => part parts.2

theorem Fields.Has.selects {name : String} {schema : Schema γ} {presence : Presence γ} {index : Nat}
    {fields : Fields τ σ} {part : τ → γ} (h : fields.Has name schema presence index part) :
    fields.Selects name schema part := by
  induction h with
  | here => exact .here (.inl rfl)
  | there hname _ ih => exact .there hname ih

theorem Fields.Has.atIndex {name : String} {schema : Schema γ} {presence : Presence γ} {index : Nat}
    {fields : Fields τ σ} {part : τ → γ} (h : fields.Has name schema presence index part) :
    fields.At schema index part := by
  induction h with
  | here => exact .here
  | there _ _ ih => exact .there ih

/-- The values of all fields but one of this schema, which is put in. -/
inductive Fields.Frame (schema : Schema γ) : {τ σ : Type} → Fields τ σ → (γ → τ) → Prop where
  | here {τ σ : Type} {name : String} {aliases : List String} {presence : Presence γ}
      {rest : Fields τ σ} (others : τ) :
      Frame schema (.cons name aliases schema presence rest) fun c => (c, others)
  | there {α τ σ : Type} {name : String} {aliases : List String} {s : Schema α}
      {presence : Presence α} {rest : Fields τ σ} {put : γ → τ} (a : α) : Frame schema rest put →
      Frame schema (.cons name aliases s presence rest) fun c => (a, put c)

theorem Fields.Frame.injective {schema : Schema γ} {fields : Fields τ σ} {put : γ → τ}
    (h : fields.Frame schema put) : Function.Injective put := by
  induction h with
  | here others => exact fun _ _ heq => congrArg Prod.fst heq
  | there a _ ih => exact fun _ _ heq => ih (congrArg Prod.snd heq)

section Members

variable {name given : String} {aliases : List String} {item : ι} {front back : List (String × ι)}

theorem ownMembers_append (front back : List (String × ι)) :
    ownMembers name aliases (front ++ back) =
      ownMembers name aliases front ++ ownMembers name aliases back :=
  List.filter_append front back

theorem otherMembers_append (front back : List (String × ι)) :
    otherMembers name aliases (front ++ back) =
      otherMembers name aliases front ++ otherMembers name aliases back :=
  List.filter_append front back

theorem ownMembers_insert_own (h : given = name ∨ given ∈ aliases) :
    ownMembers name aliases (front ++ (given, item) :: back) =
      ownMembers name aliases front ++ (given, item) :: ownMembers name aliases back := by
  rw [ownMembers_append, ownMembers_cons_of_own h]

theorem ownMembers_insert_other (h : ¬ (given = name ∨ given ∈ aliases)) :
    ownMembers name aliases (front ++ (given, item) :: back) =
      ownMembers name aliases (front ++ back) := by
  rw [ownMembers_append, ownMembers_cons_of_other h, ownMembers_append]

theorem otherMembers_insert_own (h : given = name ∨ given ∈ aliases) :
    otherMembers name aliases (front ++ (given, item) :: back) =
      otherMembers name aliases (front ++ back) := by
  rw [otherMembers_append, otherMembers_cons_of_own h, otherMembers_append]

theorem otherMembers_insert_other (h : ¬ (given = name ∨ given ∈ aliases)) :
    otherMembers name aliases (front ++ (given, item) :: back) =
      otherMembers name aliases front ++ (given, item) :: otherMembers name aliases back := by
  rw [otherMembers_append, otherMembers_cons_of_other h]

/-- Where at most one member stands under the names of a field, there is no other one. -/
theorem ownMembers_eq_nil_of_settles {presence : Presence γ} {gives : ι → γ → Prop}
    {known : Option γ} {c : γ} (hown : given = name ∨ given ∈ aliases)
    (h : presence.Settles gives known
      (ownMembers name aliases (front ++ (given, item) :: back)) c) :
    known = none ∧ ownMembers name aliases front = [] ∧ ownMembers name aliases back = [] ∧
      gives item c := by
  rw [ownMembers_insert_own hown] at h
  cases known with
  | some b => exact absurd h.1 (List.append_ne_nil_of_right_ne_nil _ (List.cons_ne_nil _ _))
  | none =>
    obtain ⟨hone, hgiven⟩ := h
    rw [List.length_append, List.length_cons] at hone
    have hfront : ownMembers name aliases front = [] := List.eq_nil_of_length_eq_zero (by omega)
    have hback : ownMembers name aliases back = [] := List.eq_nil_of_length_eq_zero (by omega)
    rw [hfront] at hgiven
    exact ⟨rfl, hfront, hback, hgiven⟩

end Members

/-- What the fields hold is, but for the field of one of the members, the same with any other item in
this member. -/
theorem Fields.Selects.settle {gives : {α : Type} → Schema α → ι → α → Prop} {given : String}
    {schema : Schema γ} {fields : Fields τ σ} {part : τ → γ} (h : fields.Selects given schema part)
    {read : σ} {front back : List (String × ι)} {item : ι} {parts : τ}
    (hsettle : fields.Settle gives read (front ++ (given, item) :: back) parts) :
    ∃ put c, fields.Frame schema put ∧ Function.LeftInverse part put ∧ gives schema item c ∧
      parts = put c ∧ ∀ item' c', gives schema item' c' →
        fields.Settle gives read (front ++ (given, item') :: back) (put c') := by
  induction h generalizing front back with
  | here hown =>
    obtain ⟨known, read⟩ := read
    obtain ⟨c, others⟩ := parts
    obtain ⟨hsettles, hrest⟩ := hsettle
    obtain ⟨rfl, hfront, hback, hc⟩ := ownMembers_eq_nil_of_settles hown hsettles
    refine ⟨fun c => (c, others), c, .here others, fun _ => rfl, hc, rfl, fun item' c' hc' => ⟨?_, ?_⟩⟩
    · rw [ownMembers_insert_own hown, hfront, hback]
      exact ⟨Nat.le_refl 1, hc'⟩
    · rw [otherMembers_insert_own hown] at hrest ⊢
      exact hrest
  | there hother _ ih =>
    obtain ⟨known, read⟩ := read
    obtain ⟨a, others⟩ := parts
    obtain ⟨hsettles, hrest⟩ := hsettle
    rw [otherMembers_insert_other hother] at hrest
    obtain ⟨put, c, hput, hpart, hc, rfl, hput'⟩ := ih hrest
    refine ⟨_, c, .there a hput, hpart, hc, rfl, fun item' c' hc' => ⟨?_, ?_⟩⟩
    · rw [ownMembers_insert_other hother] at hsettles ⊢
      exact hsettles
    · rw [otherMembers_insert_other hother]
      exact hput' item' c' hc'

/-- The same of the elements of an array. -/
theorem Fields.At.lists {gives : {α : Type} → Schema α → ι → α → Prop} {schema : Schema γ}
    {index : Nat} {fields : Fields τ σ} {part : τ → γ} (h : fields.At schema index part)
    {front back : List ι} {item : ι} {parts : τ} (hindex : front.length = index)
    (hlists : fields.Lists gives (front ++ item :: back) parts) :
    ∃ put c, fields.Frame schema put ∧ Function.LeftInverse part put ∧ gives schema item c ∧
      parts = put c ∧ ∀ item' c', gives schema item' c' →
        fields.Lists gives (front ++ item' :: back) (put c') := by
  induction h generalizing front with
  | here =>
    obtain rfl := List.eq_nil_of_length_eq_zero hindex
    obtain ⟨c, others⟩ := parts
    obtain ⟨hc, hrest⟩ := hlists
    exact ⟨_, c, .here others, fun _ => rfl, hc, rfl, fun item' c' hc' => ⟨hc', hrest⟩⟩
  | there _ ih =>
    obtain ⟨first, front, rfl⟩ := List.exists_cons_of_length_eq_add_one hindex
    obtain ⟨a, others⟩ := parts
    obtain ⟨ha, hrest⟩ := hlists
    obtain ⟨put, c, hput, hpart, hc, rfl, hput'⟩ := ih (Nat.succ.inj hindex) hrest
    exact ⟨_, c, .there a hput, hpart, hc, rfl, fun item' c' hc' => ⟨ha, hput' item' c' hc'⟩⟩

/-! ## What trees answer -/

open Extractor

namespace Schema

instance (s : Schema α) [DecidableEq α] (json : Json) (a : α) : Decidable (s.Answers json a) :=
  inferInstanceAs (Decidable (_ = _))

theorem Answers.unique {s : Schema α} {json : Json} {a b : α} (ha : s.Answers json a)
    (hb : s.Answers json b) : a = b :=
  Option.some.inj (ha.symm.trans hb)

theorem answers_nullable_iff {s : Schema α} {json : Json} (hnull : json ≠ .null) {o : Option α} :
    (nullable s).Answers json o ↔ ∃ a, s.Answers json a ∧ o = some a := by
  rw [Answers, extract_nullable, Reader.nullOr_of_ne_null hnull, answer?_map, Option.map_eq_some_iff]
  simp only [Answers, eq_comm]

theorem answers_listOrNull_iff {s : Schema (List α)} {json : Json} (hnull : json ≠ .null)
    {as : List α} : (listOrNull s).Answers json as ↔ s.Answers json as := by
  rw [Answers, extract_listOrNull, answer?_map, Reader.nullOr_of_ne_null hnull, answer?_map]
  simp [Answers]

theorem answers_list_iff {s : Schema α} {items : List Json} {as : List α} :
    (list s).Answers (.array items) as ↔ List.Forall₂ s.Answers items as := by
  change (all s.extract items).answer? = some as ↔ _
  induction items generalizing as with
  | nil => simp [all, eq_comm]
  | cons item items ih =>
    rw [all, answer?_bind fun a => (logs_all s.extract_logs items).bind fun others => logs_pure _,
      List.forall₂_cons_left_iff]
    simp only [answer?_map, Option.bind_eq_some_iff, Option.map_eq_some_iff, ih, Answers]
    constructor
    · rintro ⟨a, ha, others, hothers, rfl⟩
      exact ⟨a, others, ha, hothers, rfl⟩
    · rintro ⟨a, others, ha, hothers, rfl⟩
      exact ⟨a, ha, others, hothers, rfl⟩

/-- One member of an extensible record is taken as if it were the only field of a record, or else it
is kept. -/
theorem answer?_extensibleMember {known : Schema κ} {name given : String} {json : Json}
    {value value' : Option (Option κ)} {taken taken' : List (String × Json)} :
    (extensibleMember name known given json (value, taken)).answer? = some (value', taken') ↔
      (Fields.optional name (nullable known) .nil).Takes Answers given json (value, ()) (value', ()) ∧
        taken' = (otherMembers name [] [(given, json)]).reverse ++ taken := by
  rw [← (logs_extensibleMember known.extract_logs name given json _).answers_iff []]
  simp only [extensibleMember_eq_ok_iff, Fields.optional, Fields.Takes, List.not_mem_nil, or_false,
    Prod.mk.injEq, and_true, Answers, extract_nullable]
  by_cases hname : given = name
  · have hothers : otherMembers name [] [(given, json)] = [] :=
      otherMembers_cons_of_own (.inl hname)
    simp only [hothers, ← (logs_nullOr known.extract_logs json).answers_iff []]
    grind
  · have hothers : otherMembers name [] [(given, json)] = [(given, json)] :=
      otherMembers_cons_of_other (by simpa using hname)
    simp only [hothers, hname]
    grind

theorem answer?_overMembers_extensible {known : Schema κ} {name : String}
    {members : List (String × Json)} {value value' : Option (Option κ)}
    {taken taken' : List (String × Json)} :
    (Reader.overMembers (extensibleMember name known) members (value, taken)).answer? =
        some (value', taken') ↔
      (Fields.optional name (nullable known) .nil).TakesAll Answers members (value, ()) (value', ()) ∧
        taken' = (otherMembers name [] members).reverse ++ taken := by
  induction members generalizing value taken with
  | nil => simp [Reader.overMembers, Fields.TakesAll, eq_comm]
  | cons member members ih =>
    have hstep : Reader.overMembers (extensibleMember name known) (member :: members) (value, taken) =
        extensibleMember name known member.1 member.2 (value, taken) >>=
          Reader.overMembers (extensibleMember name known) members := rfl
    have hothers : otherMembers name [] (member :: members) =
        otherMembers name [] [member] ++ otherMembers name [] members := otherMembers_append [member] _
    rw [hstep, answer?_bind fun s => logs_overMembers
      (logs_extensibleMember known.extract_logs name) members s]
    simp only [Option.bind_eq_some_iff, Prod.exists, answer?_extensibleMember, ih, Fields.TakesAll,
      hothers, List.reverse_append, List.append_assoc]
    constructor
    · rintro ⟨between, _, ⟨hbetween, rfl⟩, hmembers, rfl⟩
      exact ⟨⟨between, (), hbetween, hmembers⟩, rfl⟩
    · rintro ⟨⟨between, ⟨⟩, hbetween, hmembers⟩, rfl⟩
      exact ⟨between, _, ⟨hbetween, rfl⟩, hmembers, rfl⟩

/-- A known member that has not been read is absent, as is null. -/
theorem complete_known_iff {known : Schema κ} {name : String} {value : Option (Option κ)}
    {o : Option κ} : (Fields.optional name (nullable known) .nil).complete (value, ()) =
      .ok (o, ()) ↔ value.getD none = o := by
  cases value <;> simp [Fields.optional, Fields.complete, Presence.absent?, Except.map]

/-- An extensible record answers what its known member answers as the only field of a record, and
keeps all other members. -/
theorem answers_extensible_iff {known : Schema κ} {name : String} {members : List (String × Json)}
    {e : Extensible κ} : (extensible name known).Answers (.object members) e ↔
      (Fields.optional name (nullable known) .nil).Gathers Answers members (e.known, ()) ∧
        e.others = .ofList (Json.resolveMembers (otherMembers name [] members)) := by
  have hextract : (extensible name known).extract (.object members) = (do
      let read ← Reader.overMembers (extensibleMember name known) members (none, [])
      return ⟨read.1.getD none, .ofList (Json.resolveMembers read.2.reverse)⟩) := rfl
  obtain ⟨o, others⟩ := e
  rw [Answers, hextract, answer?_map, Fields.gathers_iff]
  simp only [Option.map_eq_some_iff, Prod.exists, answer?_overMembers_extensible, Extensible.mk.injEq]
  constructor
  · rintro ⟨value, _, ⟨htakes, rfl⟩, rfl, rfl⟩
    exact ⟨⟨value, (), htakes, complete_known_iff.2 rfl⟩, by simp⟩
  · rintro ⟨⟨value, ⟨⟩, htakes, hvalue⟩, rfl⟩
    exact ⟨value, _, ⟨htakes, rfl⟩, complete_known_iff.1 hvalue, by simp⟩

/-! ## One step -/

/-- A value described by one schema stands right within one described by another, at this place of
its document; without it, the other one cannot be read. -/
inductive Inside : {β α : Type} → Schema β → Schema α → (Json → Json) → Prop where
  | nullable {α : Type} (s : Schema α) : Inside s (.nullable s) id
  | listOrNull {α : Type} (s : Schema (List α)) : Inside s (.listOrNull s) id
  | item {α : Type} (s : Schema α) (front back : List Json) :
      Inside s (.list s) fun x => .array (front ++ x :: back)
  | member {γ τ σ α : Type} {schema : Schema γ} {fields : Fields τ σ} {given : String}
      {part : τ → γ} (layout : Layout τ α) (h : fields.Selects given schema part)
      (front back : List (String × Json)) :
      Inside schema (.record fields layout) fun x => .object (front ++ (given, x) :: back)
  | element {γ τ σ α : Type} {schema : Schema γ} {fields : Fields τ σ} {index : Nat}
      {part : τ → γ} (layout : Layout τ α) (h : fields.At schema index part)
      (front back : List Json) (hindex : front.length = index) :
      Inside schema (.record fields layout) fun x => .array (front ++ x :: back)
  | known {κ : Type} (name : String) (s : Schema κ) (front back : List (String × Json)) :
      Inside s (.extensible name s) fun x => .object (front ++ (name, x) :: back)

/-- A value is part of another one, the rest of which is fixed. -/
inductive Frame : {β α : Type} → Schema β → Schema α → (β → α) → Prop where
  | nullable {α : Type} (s : Schema α) : Frame s (.nullable s) some
  | listOrNull {α : Type} (s : Schema (List α)) : Frame s (.listOrNull s) id
  | item {α : Type} (s : Schema α) (front back : List α) :
      Frame s (.list s) fun a => front ++ a :: back
  | entry {α : Type} (s : Schema α) (front back : List α) :
      Frame s (.tolerant s) fun a => front ++ a :: back
  | field {γ τ σ α : Type} {schema : Schema γ} {fields : Fields τ σ} {put : γ → τ}
      (layout : Layout τ α) (h : fields.Frame schema put) :
      Frame schema (.record fields layout) fun c => layout.build (put c)
  | known {κ : Type} (name : String) (s : Schema κ) (others : Dictionary Json) :
      Frame s (.extensible name s) fun a => ⟨some a, others⟩

theorem Frame.injective {part : Schema β} {s : Schema α} {f : β → α} (h : Frame part s f) :
    Function.Injective f := by
  cases h with
  | nullable => exact fun _ _ => Option.some.inj
  | listOrNull => exact Function.injective_id
  | item _ front back | entry _ front back =>
    intro a b heq
    exact (List.cons.inj (List.append_cancel_left heq)).1
  | field layout hput =>
    intro a b heq
    have hparts := congrArg layout.parts heq
    rw [layout.parts_build, layout.parts_build] at hparts
    exact hput.injective hparts
  | known =>
    intro a b heq
    exact Option.some.inj (congrArg Extensible.known heq)

/-- What is read for the whole is the part that is read at the place within a frame, and any other
part is read within the same frame. Null is left out, since it may mean that nothing is there. -/
def Hands (part : Schema β) (s : Schema α) (wrap : Json → Json) : Prop :=
  ∀ x a, x ≠ .null → s.Answers (wrap x) a → ∃ f b, Frame part s f ∧ part.Answers x b ∧ a = f b ∧
    ∀ x' b', x' ≠ .null → part.Answers x' b' → s.Answers (wrap x') (f b')

section Records

variable {schema : Schema γ} {fields : Fields τ σ} {part : τ → γ} (layout : Layout τ α)

/-- What is read of a record with a member for a field is the same with any other value there, but for
the field. -/
theorem frame_of_member {given : String} (h : fields.Selects given schema part)
    {front back : List (String × Json)} {x : Json} {a : α}
    (ha : (record fields layout).Answers (.object (front ++ (given, x) :: back)) a) :
    ∃ put c, fields.Frame schema put ∧ Function.LeftInverse part put ∧ schema.Answers x c ∧
      a = layout.build (put c) ∧ ∀ x' c', schema.Answers x' c' →
        (record fields layout).Answers (.object (front ++ (given, x') :: back))
          (layout.build (put c')) := by
  obtain ⟨parts, hgathers, rfl⟩ := answer?_object_eq_some_iff.1 ha
  obtain ⟨put, c, hput, hpart, hc, rfl, hall⟩ := h.settle hgathers
  refine ⟨put, c, hput, hpart, hc, rfl, ?_⟩
  intro x' c' hc'
  exact answer?_object_eq_some_iff.2 ⟨_, hall x' c' hc', rfl⟩

/-- The same of a record in the form of an array. -/
theorem frame_of_element {index : Nat} (h : fields.At schema index part) {front back : List Json}
    (hindex : front.length = index) {x : Json} {a : α}
    (ha : (record fields layout).Answers (.array (front ++ x :: back)) a) :
    ∃ put c, fields.Frame schema put ∧ Function.LeftInverse part put ∧ schema.Answers x c ∧
      a = layout.build (put c) ∧ ∀ x' c', schema.Answers x' c' →
        (record fields layout).Answers (.array (front ++ x' :: back)) (layout.build (put c')) := by
  obtain ⟨parts, hlists, rfl⟩ := answer?_array_eq_some_iff.1 ha
  obtain ⟨put, c, hput, hpart, hc, rfl, hall⟩ := h.lists hindex hlists
  refine ⟨put, c, hput, hpart, hc, rfl, ?_⟩
  intro x' c' hc'
  exact answer?_array_eq_some_iff.2 ⟨_, hall x' c' hc', rfl⟩

end Records

theorem hands_known (name : String) (s : Schema κ) (front back : List (String × Json)) :
    Hands s (.extensible name s) fun x => .object (front ++ (name, x) :: back) := by
  intro x e hx he
  obtain ⟨⟨hsettles, -⟩, hothers⟩ := answers_extensible_iff.1 he
  obtain ⟨-, hfront, hback, ho⟩ := ownMembers_eq_nil_of_settles (.inl rfl) hsettles
  obtain ⟨a, ha, hknown⟩ := (answers_nullable_iff hx).1 ho
  obtain ⟨known, others⟩ := e
  obtain rfl : known = some a := hknown
  refine ⟨_, a, .known name s others, ha, rfl, ?_⟩
  intro x' a' hx' ha'
  refine answers_extensible_iff.2 ⟨⟨?_, trivial⟩, ?_⟩
  · rw [ownMembers_insert_own (.inl rfl), hfront, hback]
    exact ⟨Nat.le_refl 1, (answers_nullable_iff hx').2 ⟨a', ha', rfl⟩⟩
  · rw [otherMembers_insert_own (.inl rfl)] at hothers ⊢
    exact hothers

/-- Whatever is not null is handed on by each step. -/
theorem Inside.hands {part : Schema β} {s : Schema α} {wrap : Json → Json}
    (h : Inside part s wrap) : Hands part s wrap := by
  cases h with
  | nullable =>
    intro x o hx ho
    obtain ⟨a, ha, rfl⟩ := (answers_nullable_iff hx).1 ho
    refine ⟨some, a, .nullable _, ha, rfl, ?_⟩
    intro x' a' hx' ha'
    exact (answers_nullable_iff hx').2 ⟨a', ha', rfl⟩
  | listOrNull =>
    intro x as hx has
    refine ⟨id, as, .listOrNull _, (answers_listOrNull_iff hx).1 has, rfl, ?_⟩
    intro x' as' hx' has'
    exact (answers_listOrNull_iff hx').2 has'
  | item _ front back =>
    intro x as _ has
    obtain ⟨before, a, behind, rfl, hfront, ha, hback⟩ :=
      forall₂_insert_iff.1 (answers_list_iff.1 has)
    refine ⟨_, a, .item _ before behind, ha, rfl, ?_⟩
    intro x' a' _ ha'
    exact answers_list_iff.2 (forall₂_insert_iff.2 ⟨before, a', behind, rfl, hfront, ha', hback⟩)
  | member layout h front back =>
    intro x a _ ha
    obtain ⟨put, c, hput, -, hc, rfl, hall⟩ := frame_of_member layout h ha
    exact ⟨_, c, .field layout hput, hc, rfl, fun x' c' _ => hall x' c'⟩
  | element layout h front back hindex =>
    intro x a _ ha
    obtain ⟨put, c, hput, -, hc, rfl, hall⟩ := frame_of_element layout h hindex ha
    exact ⟨_, c, .field layout hput, hc, rfl, fun x' c' _ => hall x' c'⟩
  | known name _ front back => exact hands_known name _ front back

theorem Inside.ne_null {part : Schema β} {s : Schema α} {wrap : Json → Json}
    (h : Inside part s wrap) {x : Json} (hx : x ≠ .null) : wrap x ≠ .null := by
  cases h with
  | nullable | listOrNull => exact hx
  | item | member | element | known => exact Json.noConfusion

/-- If the same is read at the place, the same is read for the whole. -/
theorem Hands.congr {part : Schema β} {s : Schema α} {wrap : Json → Json} (h : Hands part s wrap)
    {x y : Json} (hx : x ≠ .null) (hy : y ≠ .null)
    (hxy : (part.extract x).answer? = (part.extract y).answer?) :
    (s.extract (wrap x)).answer? = (s.extract (wrap y)).answer? := by
  have hone {x y : Json} (hx : x ≠ .null) (hy : y ≠ .null)
      (hxy : (part.extract x).answer? = (part.extract y).answer?) {a : α}
      (ha : s.Answers (wrap x) a) : s.Answers (wrap y) a := by
    obtain ⟨f, b, -, hb, rfl, hall⟩ := h x a hx ha
    exact hall y b hy (hxy.symm.trans hb)
  apply Option.ext
  intro a
  exact ⟨hone hx hy hxy, hone hy hx hxy.symm⟩

/-! ## Any number of steps -/

/-- A value described by one schema stands within one described by another, at this place of its
document. -/
inductive Place {β : Type} (part : Schema β) : {α : Type} → Schema α → (Json → Json) → Prop where
  | here : Place part part id
  | step {γ α : Type} {inner : Schema γ} {s : Schema α} {doc wrap : Json → Json} :
      Place part inner doc → Inside inner s wrap → Place part s fun x => wrap (doc x)
  | entry {α : Type} {element : Schema α} {doc : Json → Json} (front back : List Json) :
      Place part element doc →
      Place part (.tolerant element) fun x => .array (front ++ doc x :: back)

/-- A value described by one schema is part of one described by another, the rest of which is
fixed. -/
inductive Context {β : Type} (part : Schema β) : {α : Type} → Schema α → (β → α) → Prop where
  | here : Context part part id
  | step {γ α : Type} {inner : Schema γ} {s : Schema α} {f : β → γ} {g : γ → α} :
      Context part inner f → Frame inner s g → Context part s fun b => g (f b)

/-- What is part of a value in two different ways makes it two different values. -/
theorem Context.injective {part : Schema β} {s : Schema α} {f : β → α} (h : Context part s f) :
    Function.Injective f := by
  induction h with
  | here => exact Function.injective_id
  | step _ hg ih => exact hg.injective.comp ih

theorem Place.ne_null {part : Schema β} {s : Schema α} {doc : Json → Json} (h : Place part s doc)
    {x : Json} (hx : x ≠ .null) : doc x ≠ .null := by
  induction h with
  | here => exact hx
  | step _ hinside ih => exact hinside.ne_null ih
  | entry => exact Json.noConfusion

/-- Documents that differ at one place only, where the same is read, are read as the same. -/
theorem Place.congr {part : Schema β} {s : Schema α} {doc : Json → Json} (h : Place part s doc)
    {x y : Json} (hx : x ≠ .null) (hy : y ≠ .null)
    (hxy : (part.extract x).answer? = (part.extract y).answer?) :
    (s.extract (doc x)).answer? = (s.extract (doc y)).answer? := by
  induction h with
  | here => exact hxy
  | step hplace hinside ih => exact hinside.hands.congr (hplace.ne_null hx) (hplace.ne_null hy) ih
  | @entry _ element doc front back _ ih =>
    have hreadable (items : List Json) : ((tolerant element).extract (.array items)).answer? =
        some (items.filterMap fun item => (element.extract item).answer?) :=
      answer?_readable element.extract_logs items
    simp only [hreadable, List.filterMap_append, List.filterMap_cons, ih]

end Schema
end CredentialCeremony
