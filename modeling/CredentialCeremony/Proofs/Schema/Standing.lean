import CredentialCeremony.Proofs.Schema.Obtained
import CredentialCeremony.Proofs.Schema.Onward
import CredentialCeremony.Proofs.Schema.Place

set_option autoImplicit false

/-!
# Values that stand somewhere in a text

A value stands at a place if it is read there, in either way: directly, or out of the tree that is
spelled there (`Schema.Stands`). What is said of it then no longer depends on how it was read: the
field of a record stands at the item for the field (`Schema.HasField.of_stands`), and an extensible
record has its known member where that stands and keeps all other members
(`Schema.Stands.extensible`). In whatever text a record is read, a field of it stands at an item in the
text, which is the one of the document unless the reader has gone astray
(`Schema.HasField.exists_item`).
-/

namespace CredentialCeremony

open Reader Grammar

variable {α β κ : Type}

/-! ## Where values stand -/

/-- The value is read at this place, out of the tree that is spelled there or directly, where failures
are passed over behind values only. -/
inductive Schema.Stands (s : Schema α) (item : Bytes) (a : α) : Prop where
  | throughTree {json : Json} {behind : Bytes} : json.Spelled item behind →
      s.Answers json.resolve a → s.Stands item a
  | directly {depth : Nat} : s.ReadsAt depth item a → s.Stands item a

/-- What gives the value of a field may be weakened. -/
theorem Presence.Given.imp {ι : Type} {presence : Presence α} {gives gives' : ι → α → Prop}
    (h : ∀ item a, gives item a → gives' item a) {o : Option ι} {a : α}
    (hgiven : presence.Given gives o a) : presence.Given gives' o a := by
  cases o with
  | none => exact hgiven
  | some item => exact h item a hgiven

/-- White space in front of an array or object is no part of it. -/
theorem Outline.at_congr {o : Outline Bytes} {start item rest : Bytes}
    (h : unspaced start = unspaced item) : o.At start rest ↔ o.At item rest := by
  have hnext (c : Char) (inner : Bytes) : Next c start inner ↔ Next c item inner := by
    simp only [Next, h]
  cases o with
  | array items => simp only [Outline.At, hnext]
  | object members => simp only [Outline.At, hnext]

theorem Json.spelled_congr {json : Json} {start item rest : Bytes}
    (h : unspaced start = unspaced item) : json.Spelled start rest ↔ json.Spelled item rest := by
  rw [← spelled_unspaced_iff, h, spelled_unspaced_iff]

namespace Json

/-- The member is spelled where one of its name has its place in a text. -/
def MemberSpelled (placed : String × Bytes) (member : String × Json) : Prop :=
  placed.1 = member.1 ∧ ∃ behind, member.2.Spelled placed.2 behind

theorem memberSpelled_rightUnique : Relator.RightUnique MemberSpelled := by
  rintro ⟨name, item⟩ ⟨_, json₁⟩ ⟨_, json₂⟩ ⟨rfl, behind₁, h₁⟩ ⟨rfl, behind₂, h₂⟩
  exact congrArg (Prod.mk name) (h₁.unique h₂).1

/-- The members of a tree are spelled at their places. -/
theorem forall₂_otherMembers {name : String} (placed : List (String × Placed)) :
    List.Forall₂ MemberSpelled (otherMembers name [] (placed.map fun p => (p.1, p.2.val.2)))
      (otherMembers name [] (placed.map fun p => (p.1, p.2.val.1))) := by
  rw [otherMembers, otherMembers, List.filter_map, List.filter_map, List.forall₂_map_left_iff,
    List.forall₂_map_right_iff]
  exact List.forall₂_same.2 fun p _ => ⟨rfl, p.2.property⟩

/-- Leaving out the members of a name before or after the repeats are resolved makes no difference. -/
theorem resolve_otherMembers (name : String) (members : List (String × Json)) :
    Dictionary.ofList (resolveMembers (otherMembers name []
      (Dictionary.ofList (resolveMembers members)).entries)) =
        Dictionary.ofList (resolveMembers (otherMembers name [] members)) := by
  have hfilter : otherMembers name [] (Dictionary.ofList (resolveMembers members)).entries =
      (Dictionary.ofList (resolveMembers (otherMembers name [] members))).entries := by
    refine (Dictionary.filter_entries_ofList
      (fun given => ¬ (given = name ∨ given ∈ [])) (resolveMembers members)).trans ?_
    rw [resolveMembers_eq_map, resolveMembers_eq_map, List.filter_map]
    rfl
  have hdistinct := (distinct_resolve (.object (otherMembers name [] members))).2
  rw [hfilter, resolveMembers_of_distinct hdistinct, Dictionary.ofList_entries]

end Json

/-- What is drawn in the fields is drawn in each. -/
theorem Fields.Has.drawn {τ σ : Type} {name : String} {schema : Schema β} {presence : Presence β}
    {fields : Fields τ σ} {index : Nat} {part : τ → β}
    (h : fields.Has name schema presence index part) {depth : Nat} {parts : τ}
    (hparts : fields.Drawn depth parts) : schema.Drawn depth (part parts) := by
  induction h with
  | here => exact hparts.1
  | there _ _ ih => exact ih hparts.2

namespace Schema

/-- Null stands there and is nothing, or else a value stands there. -/
theorem Stands.nullable {s : Schema α} {item : Bytes} {o : Option α}
    (h : (nullable s).Stands item o) :
    ((∃ behind, Json.null.Spelled item behind) ∧ o = none) ∨
      ((∀ behind, ¬ Json.null.Spelled item behind) ∧ ∃ a, o = some a ∧ s.Stands item a) := by
  cases h with
  | @throughTree json behind hspelled ha =>
    by_cases hnull : json = .null
    · subst hnull
      obtain rfl := Option.some.inj ha
      exact .inl ⟨⟨behind, hspelled⟩, rfl⟩
    · have hresolve : json.resolve ≠ .null := by
        cases json with
        | null => exact absurd rfl hnull
        | _ => exact Json.noConfusion
      obtain ⟨a, hanswers, rfl⟩ := (answers_nullable_iff hresolve).1 ha
      refine .inr ⟨?_, a, rfl, .throughTree hspelled hanswers⟩
      intro behind' hspelled'
      exact hnull (hspelled.unique hspelled').1
  | directly hread =>
    obtain ⟨start, w, c', hstart, hread⟩ := hread
    rcases of_nullable_eq_ok hread with ⟨rfl, hspelled, -⟩ | ⟨hother, a, rfl, ha⟩
    · exact .inl ⟨⟨_, (Json.spelled_congr hstart).1 hspelled⟩, rfl⟩
    · refine .inr ⟨?_, a, rfl, .directly ⟨_, w, c', ?_, ha⟩⟩
      · intro behind hspelled
        obtain ⟨t, hnext, -⟩ := (word_unspaced_iff rfl).1 ((Json.spelled_congr hstart).2 hspelled)
        exact hother t hnext
      · simp [hstart]

/-- Where `true` or `false` is read, it is spelled. -/
theorem Stands.flag {item : Bytes} {b : Bool} (h : Schema.flag.Stands item b) :
    ∃ behind, (Json.bool b).Spelled item behind := by
  cases h with
  | @throughTree json behind hspelled ha =>
    cases json with
    | bool b' =>
      obtain rfl := Option.some.inj ha
      exact ⟨behind, hspelled⟩
    | _ => cases ha
  | directly hread =>
    obtain ⟨start, w, c', hstart, hread⟩ := hread
    have hspelled := (flag_eq_ok_iff.1 hread).1
    exact ⟨c'.rest, (Json.spelled_congr hstart).1 hspelled⟩

/-- Where a list stands, each element of it stands somewhere. -/
theorem Stands.list {s : Schema α} {item : Bytes} {as : List α} (h : (list s).Stands item as) :
    ∀ a ∈ as, ∃ place, s.Stands place a := by
  cases h with
  | @throughTree json behind hspelled ha =>
    cases json with
    | array items =>
      obtain ⟨inner, -, hitems⟩ := hspelled
      obtain ⟨placed, rfl, -⟩ := Json.exists_placed_of_itemsSpelled hitems
      rw [Json.resolve, Json.resolveItems_eq_map, List.map_map] at ha
      have helements := List.forall₂_map_left_iff.1 (answers_list_iff.1 ha)
      have hstands : List.Forall₂ (fun a _ => (∃ place, s.Stands place a) ∧ True) as placed := by
        refine helements.flip.imp ?_
        rintro a ⟨_, behind, hplace⟩ hanswers
        exact ⟨⟨_, .throughTree hplace hanswers⟩, trivial⟩
      exact ((List.forall₂_and_left _ _).1 hstands).1
    | _ => cases ha
  | directly hread =>
    obtain ⟨start, w, c', -, hread⟩ := hread
    refine Reader.array_ensures (P := fun a => ∃ place, s.Stands place a) ?_ _ _ _ hread
    intro c a c' hread
    exact ⟨c.rest, .directly ⟨c.rest, c.warnings, c', rfl, hread⟩⟩

/-- Where a value with a spelling of its own stands, some text spells it. -/
theorem Stands.spelled {sp : Spelling α} {item : Bytes} {a : α} (h : (spelled sp).Stands item a) :
    ∃ text, sp.parse text = .ok a := by
  cases h with
  | @throughTree json behind hspelled ha =>
    obtain ⟨w, ha⟩ := ((Schema.extract_logs _ json.resolve).answers_iff []).2 ha
    obtain ⟨text, v, -, ha⟩ := bind_eq_ok_iff.1 ha
    exact ⟨text, (Reader.extractor_ofExcept_eq_ok_iff.1 ha).1⟩
  | directly hread =>
    obtain ⟨start, w, c', -, hread⟩ := hread
    obtain ⟨text, c, -, hread⟩ := bind_eq_ok_iff.1 hread
    exact ⟨text, (Reader.extract_ofExcept_eq_ok_iff.1 hread).1⟩

/-! ## Records -/

/-- Where a record stands, the field stands at the item for it. -/
theorem HasField.of_stands {s : Schema α} {name : String} {schema : Schema β}
    {presence : Presence β} {index : Nat} {get : α → β}
    (h : s.HasField name schema presence index get) {item : Bytes} {a : α} (ha : s.Stands item a) :
    ∃ (o : Outline Bytes) (behind : Bytes), o.At item behind ∧
      presence.Given schema.Stands (o.field? name index) (get a) := by
  cases ha with
  | @throughTree json behind hspelled ha =>
    obtain ⟨o, hat, hgiven⟩ := h.of_spelled hspelled ha
    refine ⟨o, behind, hat, hgiven.imp ?_⟩
    rintro item b ⟨json, behind, hspelled, hb⟩
    exact .throughTree hspelled hb
  | directly hread =>
    obtain ⟨start, w, c', hstart, hread⟩ := hread
    obtain ⟨o, hat, depth, hgiven⟩ := h.of_read hread
    exact ⟨o, c'.rest, (Outline.at_congr hstart).1 hat, hgiven.imp fun item b => .directly⟩

/-- What is drawn in a record is drawn in its fields, one level below. -/
theorem HasField.drawn {s : Schema α} {name : String} {schema : Schema β} {presence : Presence β}
    {index : Nat} {get : α → β} (h : s.HasField name schema presence index get) {depth : Nat} {a : α}
    (ha : s.Drawn depth a) : schema.Drawn (depth - 1) (get a) := by
  obtain ⟨τ, σ, fields, layout, part, rfl, hhas, hget⟩ := h
  rw [← layout.build_parts a, hget]
  exact hhas.drawn ha

/-! ## Extensible records -/

/-- What a loop over the members of an extensible record takes: the known one as if it were the only
field of a record, and the trees of all others. -/
theorem takesAll_of_extensibleRounds {name : String} {known : Schema κ} {depth : Nat} {first : Bool}
    {c c₁ c' : Cursor} {names : List String} {seen seen' : Option (Option κ)}
    {taken taken' : List (String × Json)}
    (hrounds : MemberRounds (readExtensible .behindValue name known depth) first (seen, taken) c
      names (seen', taken') c₁) (hclose : closeObject c₁ = .ok () c') :
    ∃ members others, MembersAt members first c.rest c'.rest ∧
      (Fields.optional name (nullable known) .nil).TakesAll (Schema.ReadsAt depth) members
        (seen, ()) (seen', ()) ∧
      List.Forall₂ Json.MemberSpelled (otherMembers name [] members) others ∧
      taken' = others.reverse ++ taken := by
  induction names generalizing first c seen taken with
  | nil =>
    obtain ⟨hsame, -, rfl⟩ := hrounds
    obtain ⟨rfl, rfl⟩ := Prod.mk.inj hsame
    obtain ⟨rest, hbrace, rfl⟩ := closeObject_eq_ok_iff.1 hclose
    exact ⟨[], [], next_unspaced_iff.1 hbrace, rfl, .nil, rfl⟩
  | cons given names ih =>
    obtain ⟨start, quoted, colon, ⟨seen₁, taken₁⟩, c₂, hlead, hmark, hname, hmember, hrounds⟩ :=
      hrounds
    obtain ⟨members, others, hmembers, htakes, hothers, rfl⟩ := ih hrounds
    have hat (item : Bytes) (hcolon : Next ':' colon item) (hvalue : Value item c₂.rest) :
        MembersAt ((given, item) :: members) first c.rest c'.rest :=
      ⟨start, quoted, colon, c₂.rest, hlead, hmark, hname, hcolon, hvalue, hmembers⟩
    obtain ⟨item, hcolon, ⟨rfl, hnone, o, ho, heq⟩ | ⟨hne, json, hjson, heq⟩⟩ :=
      readExtensible_eq_ok_iff.1 hmember
    · obtain ⟨rfl, rfl⟩ := Prod.mk.inj heq
      refine ⟨(given, item) :: members, others, ?_, ?_, ?_, rfl⟩
      · exact hat item hcolon ((Schema.sound known depth).nullable _ _ _ ho)
      · exact ⟨(some o, ()), .inl ⟨.inl rfl, hnone, o, ⟨item, _, _, rfl, ho⟩, rfl⟩, htakes⟩
      · have hown : (given, item).1 = given ∨ (given, item).1 ∈ [] := .inl rfl
        rw [otherMembers_cons_of_own hown]
        exact hothers
    · obtain ⟨hsame, rfl⟩ := Prod.mk.inj heq
      obtain rfl : seen₁ = seen := hsame
      obtain ⟨tree, hspelled, -, hpure⟩ := (value_exact depth _ _ _).1 hjson
      obtain ⟨rfl, -⟩ := pure_eq_ok_iff.1 hpure
      have hother : ¬ ((given, item).1 = name ∨ (given, item).1 ∈ []) := by simpa using hne
      refine ⟨(given, item) :: members, (given, tree) :: others, ?_, ?_, ?_, ?_⟩
      · exact hat item hcolon hspelled.grammar
      · exact ⟨(seen₁, ()), .inr ⟨hother, (), trivial, rfl⟩, htakes⟩
      · rw [otherMembers_cons_of_other hother]
        exact .cons ⟨rfl, c₂.rest, hspelled⟩ hothers
      · simp

/-- Where an extensible record stands, its known member stands at the item for it, and all others are
spelled and kept. -/
theorem Stands.extensible {name : String} {known : Schema κ} {item : Bytes} {e : Extensible κ}
    (h : (extensible name known).Stands item e) :
    ∃ (members : List (String × Bytes)) (behind : Bytes) (others : List (String × Json)),
      (Outline.object members).At item behind ∧
      Presence.optional.Given (Schema.nullable known).Stands (lastNamed name members) e.known ∧
      List.Forall₂ Json.MemberSpelled (otherMembers name [] members) others ∧
      (Json.object others).Kept (.object e.others.entries) := by
  have hhas : (Fields.optional name (Schema.nullable known) .nil).Has name (Schema.nullable known)
      .optional 0 Prod.fst := .here
  cases h with
  | @throughTree json behind hspelled ha =>
    cases json with
    | object members =>
      obtain ⟨hgathers, hothers⟩ := answers_extensible_iff.1 ha
      have hgiven := hhas.given Answers (o := .object _) hgathers
      obtain ⟨placed, htrees, hat, hfield⟩ := hspelled.outline_resolve rfl
      cases placed with
      | array => cases htrees
      | object placed =>
        have hmembers := Outline.object.inj (Option.some.inj htrees)
        rw [hfield] at hgiven
        replace hgiven := hgiven.of_placed
        rw [← Outline.field?_map] at hgiven
        refine ⟨_, behind, otherMembers name [] members, hat, hgiven.imp ?_, ?_, ?_⟩
        · rintro item o ⟨json, behind, hspelled, ho⟩
          exact .throughTree hspelled ho
        · rw [hmembers]
          exact Json.forall₂_otherMembers placed
        · rw [Json.kept_iff, hothers, Json.resolve_otherMembers]
          rfl
    | _ => cases ha
  | directly hread =>
    obtain ⟨start, w, c', hstart, hread⟩ := hread
    obtain ⟨d, ⟨seen, taken⟩, t, c₁, -, hopen, hloop, hclose, rfl⟩ :=
      read_extensible_eq_ok_iff.1 hread
    obtain ⟨names, hrounds, -⟩ := members_eq_ok_iff.1 hloop
    obtain ⟨members, others, hmembers, htakes, hothers, rfl⟩ :=
      takesAll_of_extensibleRounds hrounds hclose
    have hgathers := (Fields.gathers_iff _).2 ⟨(seen, ()), htakes, complete_known_iff.2 rfl⟩
    refine ⟨members, c'.rest, others, (Outline.at_congr hstart).1 ⟨t, hopen, hmembers⟩, ?_, hothers, ?_⟩
    · have hgiven := hhas.given (ReadsAt d) (o := .object members) hgathers
      exact hgiven.imp fun item o => .directly
    · rw [Json.kept_iff, Json.resolve, List.append_nil, List.reverse_reverse]

/-! ## Whole texts -/

/-- The text is read as the value, directly or through a tree. -/
def Accepts (s : Schema α) (text : Bytes) (a : α) : Prop :=
  (s.readText text).value? = some a ∨ (s.readValue text).value? = some a

/-- The value is read off a document, directly or through a tree of it. A direct reader may go astray in
a document that no tree can hold, so there it has to read the same where it passes over failures
behind values only. -/
inductive ReadOff (s : Schema α) (text : Bytes) (a : α) : Prop where
  | directly : (s.readText text).value? = some a → Document text →
      (Illegible text → (s.readStrictly text).value? = some a) → s.ReadOff text a
  | throughTree : (s.readValue text).value? = some a → s.ReadOff text a

/-- In a document off which a record is read, the field stands at the item for it. -/
theorem HasField.of_readOff {s : Schema α} {name : String} {schema : Schema β}
    {presence : Presence β} {index : Nat} {get : α → β}
    (h : s.HasField name schema presence index get) {text : Bytes} {a : α} (ha : s.ReadOff text a) :
    ∃ o : Outline Bytes, o.Of text ∧ presence.Given schema.Stands (o.field? name index) (get a) := by
  cases ha with
  | directly hread hdocument hillegible =>
    have hstrict : (s.readStrictly text).value? = some a :=
      ((document_iff_of_readText s text a hread).1 hdocument).elim id hillegible
    obtain ⟨o, ho, depth, hgiven⟩ := h.of_readStrictly hstrict
    exact ⟨o, ho, hgiven.imp fun item b => .directly⟩
  | throughTree hread =>
    obtain ⟨o, ho, hgiven⟩ := h.of_readValue hread
    refine ⟨o, ho, hgiven.imp ?_⟩
    rintro item b ⟨json, behind, hspelled, hb⟩
    exact .throughTree hspelled hb

/-- What is read at a place stands there, if the reader cannot go astray. -/
theorem ReadsFrom.stands {s : Schema α} (hs : s.read .inPlace = s.read .behindValue) {depth : Nat}
    {item : Bytes} {a : α} (h : s.ReadsFrom depth item a) : s.Stands item a := by
  obtain ⟨w, c', hread⟩ := h
  rw [hs] at hread
  exact .directly ⟨item, w, c', rfl, hread⟩

/-- What is read off a whole text stands at the front of it, if the reader cannot go astray. -/
theorem Accepts.stands {s : Schema α} (hs : s.read .inPlace = s.read .behindValue) {text : Bytes}
    {a : α} (h : s.Accepts text a) : s.Stands text a := by
  rcases h with hread | hread
  · obtain ⟨c, hread, -⟩ := run_outcome_eq_ok_iff.1 (Reading.value?_eq_some_iff.1 hread)
    exact ReadsFrom.stands hs ⟨[], c, hread⟩
  · obtain ⟨json, w, ⟨⟨rest, hspelled, -⟩, -⟩, hx⟩ := readValue_value?_eq_some_iff.1 hread
    exact .throughTree hspelled ((s.extract_logs json.resolve).of_ok hx)

/-- The item that a field of the value was read at: the one for the field in the document, if the value
is read off one, and else some part of the text, since the reader may have gone astray. -/
inductive ItemFor (s : Schema α) (text : Bytes) (a : α) (name : String) (index : Nat) :
    Option Bytes → Prop where
  | ofDocument {document : Outline Bytes} : s.ReadOff text a → document.Of text →
      s.ItemFor text a name index (document.field? name index)
  | ofText {item : Option Bytes} : ¬ s.ReadOff text a → (∀ place ∈ item, place <:+ text) →
      s.ItemFor text a name index item

theorem ItemFor.of_readOff {s : Schema α} {text : Bytes} {a : α} {name : String} {index : Nat}
    {item : Option Bytes} (h : s.ItemFor text a name index item) (ha : s.ReadOff text a) :
    ∃ document : Outline Bytes, document.Of text ∧ item = document.field? name index := by
  cases h with
  | ofDocument _ hdocument => exact ⟨_, hdocument, rfl⟩
  | ofText hoff => exact absurd ha hoff

/-- Whatever the text is that a record is read off, the field stands at an item for it, if its own
reader cannot go astray. -/
theorem HasField.exists_item {s : Schema α} {name : String} {schema : Schema β}
    {presence : Presence β} {index : Nat} {get : α → β}
    (h : s.HasField name schema presence index get)
    (hschema : schema.read .inPlace = schema.read .behindValue) {text : Bytes} {a : α}
    (ha : s.Accepts text a) :
    ∃ item, s.ItemFor text a name index item ∧ presence.Given schema.Stands item (get a) := by
  by_cases hoff : s.ReadOff text a
  · obtain ⟨document, hdocument, hgiven⟩ := h.of_readOff hoff
    exact ⟨_, .ofDocument hoff hdocument, hgiven⟩
  · rcases ha with hread | hread
    · obtain ⟨item, hitem, depth, hgiven⟩ := h.of_readText hread
      refine ⟨item, .ofText hoff hitem, hgiven.imp ?_⟩
      exact fun place b hplace => hplace.stands hschema
    · exact absurd (.throughTree hread) hoff

end Schema
end CredentialCeremony
