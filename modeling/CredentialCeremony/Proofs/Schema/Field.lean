import CredentialCeremony.Proofs.Schema.Fieldwise
import CredentialCeremony.Proofs.Schema.RoundTrip

set_option autoImplicit false

/-!
# One field of a document

What a document says of one field of a record, whatever else stands in it: a document has an
outline, at most one item in it stands for the field, and the field holds what this item gives
(`Schema.HasField.of_readValue`, `Schema.HasField.of_readStrictly`). What is written for the record
has one member for the field, unless it is left out (`Schema.HasField.onlyNamed_toJson`).
-/

namespace CredentialCeremony

open Grammar

variable {α β : Type}

/-- The values of the schema are records with this field at this position, under this name only. -/
def Schema.HasField (s : Schema α) (name : String) (schema : Schema β) (presence : Presence β)
    (index : Nat) (get : α → β) : Prop :=
  ∃ (τ σ : Type) (fields : Fields τ σ) (layout : Layout τ α) (part : τ → β),
    s = .record fields layout ∧ fields.Has name schema presence index part ∧
      ∀ parts, get (layout.build parts) = part parts

/-- What the trees at the places in a text answer is given by the places. -/
theorem Presence.Given.of_placed {presence : Presence β} {schema : Schema β}
    {item : Option Json.Placed} {b : β}
    (h : presence.Given schema.Answers (item.map fun p => p.val.1.resolve) b) :
    presence.Given (fun item b => ∃ (json : Json) (behind : Bytes), json.Spelled item behind ∧
      schema.Answers json.resolve b) (item.map fun p => p.val.2) b := by
  cases item with
  | none => exact h
  | some p =>
    obtain ⟨behind, hspelled⟩ := p.property
    exact ⟨p.val.1, behind, hspelled, h⟩

namespace Schema.HasField

variable {s : Schema α} {name : String} {schema : Schema β} {presence : Presence β} {index : Nat}
  {get : α → β}

/-- In a tree, the field is what the item that stands for it answers. -/
theorem of_answer (h : s.HasField name schema presence index get) {json : Json} {a : α}
    (ha : s.Answers json a) : ∃ o, json.outline? = some o ∧
      presence.Given schema.Answers (o.field? name index) (get a) := by
  obtain ⟨τ, σ, fields, layout, part, rfl, hhas, hget⟩ := h
  obtain ⟨o, parts, ho, hmakes, rfl⟩ := Schema.answer?_record_eq_some_iff.1 ha
  exact ⟨o, ho, hget parts ▸ hhas.given Schema.Answers hmakes⟩

/-- Where a tree is spelled, the field is what the tree of its item answers, the last one of its
name. -/
theorem of_spelled (h : s.HasField name schema presence index get) {json : Json} {a : α}
    {text rest : Bytes} (hspelled : json.Spelled text rest) (ha : s.Answers json.resolve a) :
    ∃ o : Outline Bytes, o.At text rest ∧
      presence.Given (fun item b => ∃ (json : Json) (behind : Bytes), json.Spelled item behind ∧
        schema.Answers json.resolve b) (o.field? name index) (get a) := by
  obtain ⟨resolved, hresolved, hgiven⟩ := h.of_answer ha
  obtain ⟨placed, -, hat, hfield⟩ := hspelled.outline_resolve hresolved
  rw [hfield] at hgiven
  refine ⟨_, hat, ?_⟩
  rw [Outline.field?_map]
  exact hgiven.of_placed

/-- In a document that is read through a tree, the field is what the tree of its item answers. -/
theorem of_readValue (h : s.HasField name schema presence index get) {text : Bytes} {a : α}
    (ha : (s.readValue text).value? = some a) : ∃ o : Outline Bytes, o.Of text ∧
      presence.Given (fun item b => ∃ (json : Json) (behind : Bytes), json.Spelled item behind ∧
        schema.Answers json.resolve b) (o.field? name index) (get a) := by
  obtain ⟨json, w, ⟨⟨rest, hspelled, hrest⟩, -⟩, hextract⟩ :=
    Schema.readValue_value?_eq_some_iff.1 ha
  obtain ⟨o, hat, hgiven⟩ := h.of_spelled hspelled ((s.extract_logs json.resolve).of_ok hextract)
  exact ⟨o, ⟨rest, hat, unspaced_eq_nil_iff.1 hrest⟩, hgiven⟩

/-- Where a record is read and failures are passed over behind values only, the field is what is read
at its item. -/
theorem of_read (h : s.HasField name schema presence index get) {depth : Nat} {c c' : Cursor} {a : α}
    (ha : s.read .behindValue depth c = .ok a c') : ∃ o : Outline Bytes, o.At c.rest c'.rest ∧
      ∃ depth, presence.Given (schema.ReadsAt depth) (o.field? name index) (get a) := by
  obtain ⟨τ, σ, fields, layout, part, rfl, hhas, hget⟩ := h
  obtain ⟨d, o, parts, -, hat, hmakes, rfl⟩ := Schema.exists_outline_of_read ha
  exact ⟨o, hat, d, hget parts ▸ hhas.given (Schema.ReadsAt d) hmakes⟩

/-- In a document that is read where failures are passed over behind values only, the field is what
is read at its item. -/
theorem of_readStrictly (h : s.HasField name schema presence index get) {text : Bytes} {a : α}
    (ha : (s.readStrictly text).value? = some a) : ∃ o : Outline Bytes, o.Of text ∧
      ∃ depth, presence.Given (schema.ReadsAt depth) (o.field? name index) (get a) := by
  obtain ⟨c, hread, hrest⟩ := Reader.run_outcome_eq_ok_iff.1 (Reading.value?_eq_some_iff.1 ha)
  obtain ⟨o, hat, hgiven⟩ := h.of_read hread
  exact ⟨o, ⟨c.rest, hat, unspaced_eq_nil_iff.1 hrest⟩, hgiven⟩

/-- Where the schema of the field is read exactly, this is what the tree of its item answers. -/
theorem of_readStrictly_of_exact (h : s.HasField name schema presence index get)
    (hexact : ∀ depth, Reader.Exact depth (schema.read .behindValue depth) schema.extract)
    {text : Bytes} {a : α} (ha : (s.readStrictly text).value? = some a) :
    ∃ o : Outline Bytes, o.Of text ∧
      presence.Given (fun item b => ∃ (json : Json) (behind : Bytes), json.Spelled item behind ∧
        schema.Answers json b) (o.field? name index) (get a) := by
  obtain ⟨o, ho, depth, hgiven⟩ := h.of_readStrictly ha
  refine ⟨o, ho, ?_⟩
  cases hitem : o.field? name index with
  | none =>
    rw [hitem] at hgiven
    exact hgiven
  | some item =>
    rw [hitem] at hgiven
    obtain ⟨start, w, c', hstart, hread⟩ := hgiven
    obtain ⟨json, hspelled, -, hx⟩ := (hexact depth _ _ _).1 hread
    rw [← Json.spelled_unspaced_iff, hstart, Json.spelled_unspaced_iff] at hspelled
    exact ⟨json, c'.rest, hspelled, (schema.extract_logs json).of_ok hx⟩

end Schema.HasField

/-! ## The field as it is written -/

/-- Among the members of a record, one is written for the field, unless it is left out. -/
theorem Fields.Has.filter_members {τ σ : Type} {fields : Fields τ σ} {name : String}
    {schema : Schema β} {presence : Presence β} {index : Nat} {part : τ → β}
    (h : fields.Has name schema presence index part) (hnames : fields.names.Nodup) (parts : τ) :
    ((fields.members parts).filter fun member => member.1 = name) =
      if presence.omits (part parts) then [] else [(name, schema.toJson (part parts))] := by
  induction h with
  | @here τ σ rest =>
    obtain ⟨a, others⟩ := parts
    have hrest : ((rest.members others).filter fun member => member.1 = name) = [] := by
      rw [List.filter_eq_nil_iff]
      intro member hmember hname
      rw [decide_eq_true_eq] at hname
      exact (List.nodup_cons.1 hnames).1 (hname ▸ Fields.name_mem_of_mem_members hmember)
    rw [Fields.members]
    by_cases homits : presence.omits a = true
    · simp [homits, hrest]
    · simp [homits, hrest]
  -- the field in front has another name, whether it is written or not
  | @there _ _ _ other aliases s p rest _ part hother _ ih =>
    obtain ⟨a, others⟩ := parts
    have hne : other ≠ name := fun h => hother (.inl h.symm)
    rw [← ih (List.nodup_cons.1 hnames).2, Fields.members]
    by_cases homits : p.omits a = true
    · rw [if_pos homits]
    · rw [if_neg homits]
      exact List.filter_cons_of_neg (by simpa using hne)

namespace Schema.HasField

variable {s : Schema α} {name : String} {schema : Schema β} {presence : Presence β} {index : Nat}
  {get : α → β}

theorem filter_toJson (h : s.HasField name schema presence index get) (hs : s.faithful = true)
    (a : α) : ∃ members, s.toJson a = .object members ∧
      (members.filter fun member => member.1 = name) =
        if presence.omits (get a) then [] else [(name, schema.toJson (get a))] := by
  obtain ⟨τ, σ, fields, layout, part, rfl, hhas, hget⟩ := h
  have hpart : get a = part (layout.parts a) := by
    rw [← hget, layout.build_parts]
  refine ⟨fields.members (layout.parts a), rfl, ?_⟩
  rw [hpart]
  exact hhas.filter_members (Fields.names_nodup_of_faithful hs) _

theorem onlyNamed_toJson (h : s.HasField name schema presence index get) (hs : s.faithful = true)
    (a : α) : ∃ members, s.toJson a = .object members ∧ onlyNamed name members =
      if presence.omits (get a) then none else some (schema.toJson (get a)) := by
  obtain ⟨members, hmembers, hnamed⟩ := h.filter_toJson hs a
  refine ⟨members, hmembers, ?_⟩
  rw [onlyNamed, hnamed]
  cases presence.omits (get a) <;> rfl

/-- A field that may be null has one member, unless it is null. -/
theorem filter_toJson_nullable {get : α → Option β}
    (h : s.HasField name (.nullable schema) .optional index get) (hs : s.faithful = true) (a : α) :
    ∃ members, s.toJson a = .object members ∧
      (members.filter fun member => member.1 = name) =
        ((get a).map fun b => (name, schema.toJson b)).toList := by
  obtain ⟨members, hmembers, hnamed⟩ := h.filter_toJson hs a
  refine ⟨members, hmembers, hnamed.trans ?_⟩
  cases get a <;> rfl

end Schema.HasField
end CredentialCeremony
