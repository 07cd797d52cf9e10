import CredentialCeremony.Proofs.Json.Resolution
import CredentialCeremony.Proofs.Schema.Fieldwise
import CredentialCeremony.Proofs.Schema.Whole

set_option autoImplicit false

/-!
# One member more

A record with one member more than another is read as the other, with that member read in its place
and put into its field when the record is complete: members of other fields take no notice of it
(`Fields.Slot.extractMember_put`), and neither does the end of the record
(`Fields.Slot.complete_put`).

Main statement: the record with the member is what the record without it is, but for the field, if
the member is read at all, whatever the members are and however they are taken
(`Fields.Slot.assemble_insert`); for those of a tree, `Schema.HasSlot.extract_insert_of_total`.
-/

namespace CredentialCeremony

open Extractor

variable {α β : Type}

theorem Extractor.ofExcept_map {γ : Type} (f : α → γ) (r : Except ReadError α) :
    Extractor.ofExcept (r.map f) = (do return f (← Extractor.ofExcept r)) := by
  cases r with
  | ok a => rfl
  | error e => rfl

/-- A record has this field, under this name only: `put` is the field of what has been read, and
`place` that of the complete record. -/
inductive Fields.Slot (name : String) (schema : Schema β) (presence : Presence β) :
    {τ σ : Type} → Fields τ σ → (put : Option β → σ → σ) → (place : β → τ → τ) → Prop where
  | here {τ σ : Type} {rest : Fields τ σ} :
      Slot name schema presence (.cons name [] schema presence rest)
        (fun o read => (o, read.2)) (fun b parts => (b, parts.2))
  | there {γ τ σ : Type} {other : String} {aliases : List String} {s : Schema γ} {p : Presence γ}
      {rest : Fields τ σ} {put : Option β → σ → σ} {place : β → τ → τ} :
      ¬ (name = other ∨ name ∈ aliases) → Slot name schema presence rest put place →
      Slot name schema presence (.cons other aliases s p rest)
        (fun o read => (read.1, put o read.2)) (fun b parts => (parts.1, place b parts.2))

namespace Fields.Slot

variable {τ σ : Type} {name : String} {schema : Schema β} {presence : Presence β}
  {fields : Fields τ σ} {put : Option β → σ → σ} {place : β → τ → τ}

/-- What is put last counts. -/
theorem put_put (h : fields.Slot name schema presence put place) (o o' : Option β) (read : σ) :
    put o (put o' read) = put o read := by
  induction h with
  | here => rfl
  | there _ _ ih => exact congrArg (Prod.mk _) (ih read.2)

/-- Nothing has been read for the field in the beginning. -/
theorem put_unread (h : fields.Slot name schema presence put place) :
    put none fields.unread = fields.unread := by
  induction h with
  | here => rfl
  | there _ _ ih => exact congrArg (Prod.mk none) ih

/-- A member of another name is taken as it would be without the field, which keeps what it has. -/
theorem extractMember_put (h : fields.Slot name schema presence put place) {given : String}
    (hgiven : given ≠ name) (json : Json) (o : Option β) (read : σ) :
    fields.extractMember given json (put o read) =
      (do return put o (← fields.extractMember given json read)) := by
  induction h with
  | here =>
    obtain ⟨known, others⟩ := read
    simp [Fields.extractMember, hgiven]
  | @there _ _ _ other aliases s p rest put place hother _ ih =>
    obtain ⟨known, others⟩ := read
    by_cases hown : given = other ∨ given ∈ aliases
    · cases known with
      | none => simp [Fields.extractMember, hown]
      | some a => simp [Fields.extractMember, hown]; rfl
    · simp [Fields.extractMember, hown, ih others]

/-- The member of the field is read and put into it. -/
theorem extractMember_own (h : fields.Slot name schema presence put place) (json : Json)
    {read : σ} (hread : put none read = read) :
    fields.extractMember name json read = (do return put (some (← schema.extract json)) read) := by
  induction h with
  | here =>
    obtain ⟨known, others⟩ := read
    obtain rfl : none = known := congrArg Prod.fst hread
    simp [Fields.extractMember]
  | @there _ _ _ other aliases s p rest put place hother _ ih =>
    obtain ⟨known, others⟩ := read
    have hothers : put none others = others := congrArg Prod.snd hread
    simp [Fields.extractMember, hother, ih hothers]

/-- A complete record is the same with the field as without it, but for the field. -/
theorem complete_put (h : fields.Slot name schema presence put place) {absent : β}
    (habsent : presence.absent? = some absent) (b : β) (read : σ) :
    fields.complete (put (some b) read) = (fields.complete (put none read)).map (place b) := by
  induction h with
  | here =>
    obtain ⟨known, others⟩ := read
    simp only [Fields.complete, habsent]
    cases Fields.complete _ others <;> rfl
  | @there _ _ _ other aliases s p rest put place _ _ ih =>
    obtain ⟨known, others⟩ := read
    simp only [Fields.complete, ih others]
    cases known <|> p.absent? with
    | none => rfl
    | some a => cases rest.complete (put none others) <;> rfl

/-- Only the schema of the field decides whether its member is tame. -/
theorem tameMember_own (h : fields.Slot name schema presence put place) (json : Json) :
    fields.tameMember name json = schema.tame json := by
  induction h with
  | here => simp [Fields.tameMember]
  | there hother _ ih => simp [Fields.tameMember, hother, ih]

end Fields.Slot

/-! ## Records put together from their members -/

section Gathering

variable {ι τ σ : Type}

/-- A record that is put together from its members, taken one by one. -/
def Fields.assemble (fields : Fields τ σ) (layout : Layout τ α) (take : ι → σ → Extractor σ)
    (members : List ι) : Extractor α := do
  let read ← members.foldlM (fun read member => take member read) fields.unread
  return layout.build (← Extractor.ofExcept (fields.complete read))

variable {name : String} {schema : Schema β} {presence : Presence β} {fields : Fields τ σ}
  {layout : Layout τ α} {put : Option β → σ → σ} {place : β → τ → τ} {set : β → α → α}
  {take : ι → σ → Extractor σ} {front back : List ι} {own : ι} {x : Extractor β} {absent : β}

/-- Members that take no notice of the field leave it as it is. -/
theorem foldlM_put {members : List ι} (h : ∀ member ∈ members, ∀ (o : Option β) (read : σ),
      take member (put o read) = (do return put o (← take member read)))
    (o : Option β) (read : σ) :
    members.foldlM (fun read member => take member read) (put o read) =
      (do return put o (← members.foldlM (fun read member => take member read) read)) := by
  induction members generalizing read with
  | nil => simp
  | cons member members ih =>
    rw [List.forall_mem_cons] at h
    simp only [List.foldlM_cons, h.1, bind_assoc, pure_bind, ih h.2]

/-- A record with a member for the field is put together in three parts: the members in front of it,
the member itself, and what is behind it up to the end. Without the member, the second part is
missing. -/
theorem Fields.Slot.assemble_insert (h : fields.Slot name schema presence put place)
    (habsent : presence.absent? = some absent)
    (hset : ∀ b parts, set b (layout.build parts) = layout.build (place b parts))
    (hlogs : ∀ member read, (take member read).Logs)
    (hothers : ∀ member ∈ front ++ back, ∀ o read,
      take member (put o read) = (do return put o (← take member read)))
    (hown : ∀ read, put none read = read → take own read = (do return put (some (← x)) read)) :
    ∃ (before : Extractor σ) (behind : σ → Extractor α), (∀ read, (behind read).Logs) ∧
      fields.assemble layout take (front ++ back) = before >>= behind ∧
      fields.assemble layout take (front ++ own :: back) = (do
        let read ← before
        let b ← x
        return set b (← behind read)) := by
  rw [List.forall_mem_append] at hothers
  -- what is in front leaves the field empty
  have hbefore : front.foldlM (fun read member => take member read) fields.unread = (do
      return put none (← front.foldlM (fun read member => take member read) fields.unread)) := by
    have hempty := foldlM_put hothers.1 none fields.unread
    rwa [h.put_unread] at hempty
  refine ⟨front.foldlM (fun read member => take member read) fields.unread, fun read => do
    let read ← back.foldlM (fun read member => take member read) read
    return layout.build (← Extractor.ofExcept (fields.complete (put none read))), ?_, ?_, ?_⟩
  · intro read
    refine (logs_foldlM hlogs back read).bind fun read => ?_
    exact (logs_ofExcept _).bind fun parts => logs_pure _
  · rw [assemble, List.foldlM_append, hbefore]
    simp only [bind_assoc, pure_bind, foldlM_put hothers.2, h.put_put]
  · rw [assemble, List.foldlM_append, hbefore]
    simp only [bind_assoc, pure_bind, List.foldlM_cons, hown _ (h.put_put none none _), h.put_put,
      foldlM_put hothers.2, h.complete_put habsent, Extractor.ofExcept_map, hset]

/-- A member that is always read, to `b` and with the warnings `extra`, leaves everything else of
the record as it is and refuses nothing. -/
theorem Fields.Slot.assemble_insert_of_total (h : fields.Slot name schema presence put place)
    (habsent : presence.absent? = some absent)
    (hset : ∀ b parts, set b (layout.build parts) = layout.build (place b parts))
    (hlogs : ∀ member read, (take member read).Logs)
    (hothers : ∀ member ∈ front ++ back, ∀ o read,
      take member (put o read) = (do return put o (← take member read)))
    (hown : ∀ read, put none read = read → take own read = (do return put (some (← x)) read))
    {b : β} {extra : List TimeoutWarning} (hx : ∀ w, x w = .ok b (w ++ extra)) :
    (∀ a w, fields.assemble layout take (front ++ back) [] = .ok a w → ∃ w₁ w₂, w = w₁ ++ w₂ ∧
      fields.assemble layout take (front ++ own :: back) [] = .ok (set b a) (w₁ ++ extra ++ w₂)) ∧
    (∀ a w, fields.assemble layout take (front ++ own :: back) [] = .ok a w →
      ∃ a w, fields.assemble layout take (front ++ back) [] = .ok a w) := by
  obtain ⟨before, behind, hlogs, hshort, hlong⟩ := h.assemble_insert habsent hset hlogs hothers hown
  rw [hshort, hlong]
  constructor
  · intro a w hread
    obtain ⟨read, w₁, hbefore, hbehind⟩ := bind_eq_ok_iff.1 hread
    -- the part behind the member adds the same to any log
    obtain ⟨w₂, hadded⟩ := (hlogs read).of_answer? ((hlogs read).of_ok hbehind)
    obtain ⟨-, rfl⟩ := EStateM.Result.ok.inj (hbehind.symm.trans (hadded w₁))
    refine ⟨w₁, w₂, rfl, ?_⟩
    rw [bind_of_ok hbefore, bind_of_ok (hx w₁), bind_of_ok (hadded (w₁ ++ extra))]
    rfl
  · intro a w hread
    obtain ⟨read, w₁, hbefore, hread⟩ := bind_eq_ok_iff.1 hread
    obtain ⟨b', w', hmember, hread⟩ := bind_eq_ok_iff.1 hread
    obtain ⟨a, w₂, hbehind, -⟩ := bind_eq_ok_iff.1 hread
    obtain ⟨added, hadded⟩ := (hlogs read).of_answer? ((hlogs read).of_ok hbehind)
    exact ⟨a, w₁ ++ added, bind_eq_ok_iff.2 ⟨read, w₁, hbefore, hadded w₁⟩⟩

end Gathering

/-! ## Records in a tree -/

/-- The values of the schema are records with this field, under this name only, and `set` puts a
value into it. -/
def Schema.HasSlot (s : Schema α) (name : String) (schema : Schema β) (presence : Presence β)
    (set : β → α → α) : Prop :=
  ∃ (τ σ : Type) (fields : Fields τ σ) (layout : Layout τ α) (put : Option β → σ → σ)
    (place : β → τ → τ), s = .record fields layout ∧ fields.Slot name schema presence put place ∧
      ∀ b parts, set b (layout.build parts) = layout.build (place b parts)

namespace Schema.HasSlot

variable {s : Schema α} {name : String} {schema : Schema β} {presence : Presence β}
  {set : β → α → α} {front back : List (String × Json)} {json : Json}

/-- A member of a tree that is always read leaves everything else of the record as it is. -/
theorem extract_insert_of_total (h : s.HasSlot name schema presence set) {absent : β}
    (habsent : presence.absent? = some absent) (hfront : ∀ member ∈ front, member.1 ≠ name)
    (hback : ∀ member ∈ back, member.1 ≠ name) {b : β} {extra : List TimeoutWarning}
    (hjson : ∀ w, schema.extract json w = .ok b (w ++ extra)) :
    (∀ a w, s.extract (.object (front ++ back)) [] = .ok a w → ∃ w₁ w₂, w = w₁ ++ w₂ ∧
      s.extract (.object (front ++ (name, json) :: back)) [] =
        .ok (set b a) (w₁ ++ extra ++ w₂)) ∧
    (∀ a w, s.extract (.object (front ++ (name, json) :: back)) [] = .ok a w →
      ∃ a w, s.extract (.object (front ++ back)) [] = .ok a w) := by
  obtain ⟨τ, σ, fields, layout, put, place, rfl, hslot, hset⟩ := h
  have hnames := List.forall_mem_append.2 ⟨hfront, hback⟩
  let take (member : String × Json) (read : σ) := fields.extractMember member.1 member.2 read
  have hothers : ∀ member ∈ front ++ back, ∀ o read,
      take member (put o read) = (do return put o (← take member read)) :=
    fun member hmember => hslot.extractMember_put (hnames member hmember) member.2
  have hlogs : ∀ member read, (take member read).Logs :=
    fun member => fields.extractMember_logs member.1 member.2
  have hown : ∀ read, put none read = read →
      take (name, json) read = (do return put (some (← schema.extract json)) read) :=
    fun read hread => hslot.extractMember_own json hread
  exact hslot.assemble_insert_of_total habsent hset hlogs hothers hown hjson

/-- Whether the record with the member is tame is seen from the member and from the others. -/
theorem tame_insert (h : s.HasSlot name schema presence set) :
    s.tame (.object (front ++ (name, json) :: back)) =
      (schema.tame json && s.tame (.object (front ++ back))) := by
  obtain ⟨τ, σ, fields, layout, put, place, rfl, hslot, -⟩ := h
  simp only [Schema.tame, List.all_append, List.all_cons, hslot.tameMember_own]
  exact Bool.and_left_comm _ _ _

end Schema.HasSlot

/-! ## Whole texts -/

/-- Two readings that succeed together, where one has changed the value that the other has and has
logged more warnings at some place. -/
structure Reading.Adds (long short : Reading α) (change : α → α) (extra : List TimeoutWarning) :
    Prop where
  adds : ∀ a w, short = ⟨.ok a, w⟩ →
    ∃ w₁ w₂, w = w₁ ++ w₂ ∧ long = ⟨.ok (change a), w₁ ++ extra ++ w₂⟩
  refuses : ∀ a w, long = ⟨.ok a, w⟩ → ∃ a w, short = ⟨.ok a, w⟩

/-- The value is the other one changed, if there is one. -/
theorem Reading.Adds.value?_eq {long short : Reading α} {change : α → α}
    {extra : List TimeoutWarning} (h : long.Adds short change extra) :
    long.value? = short.value?.map change := by
  cases hshort : short.value? with
  | none =>
    rw [Option.map_none, Option.eq_none_iff_forall_ne_some]
    intro a hlong
    obtain ⟨w, hlong⟩ := Reading.value?_eq_some_iff_exists.1 hlong
    obtain ⟨b, v, hread⟩ := h.refuses a w hlong
    rw [Reading.value?_eq_some_iff_exists.2 ⟨v, hread⟩] at hshort
    cases hshort
  | some a =>
    obtain ⟨w, hread⟩ := Reading.value?_eq_some_iff_exists.1 hshort
    obtain ⟨w₁, w₂, -, hlong⟩ := h.adds a w hread
    exact Reading.value?_eq_some_iff_exists.2 ⟨_, hlong⟩

/-- A reading that adds one value and no warnings succeeds exactly with the other one. -/
theorem Reading.Adds.eq_ok_iff {long short : Reading α} {change : α → α} {b : α}
    {w : List TimeoutWarning} (h : long.Adds short change []) :
    long = ⟨.ok b, w⟩ ↔ ∃ a, short = ⟨.ok a, w⟩ ∧ b = change a := by
  have hadds : ∀ a v, short = ⟨.ok a, v⟩ → long = ⟨.ok (change a), v⟩ := by
    intro a v hshort
    obtain ⟨w₁, w₂, rfl, hlong⟩ := h.adds a v hshort
    rwa [List.append_nil] at hlong
  constructor
  · intro hlong
    obtain ⟨a, v, hshort⟩ := h.refuses b w hlong
    have hsame := (hadds a v hshort).symm.trans hlong
    cases hsame
    exact ⟨a, hshort, rfl⟩
  · rintro ⟨a, hshort, rfl⟩
    exact hadds a w hshort

/-- Readings that succeed with the same add the same. -/
theorem Reading.Adds.congr {long short long' short' : Reading α} {change : α → α}
    {extra : List TimeoutWarning} (h : long.Adds short change extra)
    (hlong : ∀ a w, long' = ⟨.ok a, w⟩ ↔ long = ⟨.ok a, w⟩)
    (hshort : ∀ a w, short' = ⟨.ok a, w⟩ ↔ short = ⟨.ok a, w⟩) :
    long'.Adds short' change extra := by
  constructor
  · intro a w hread
    obtain ⟨w₁, w₂, hw, hadded⟩ := h.adds a w ((hshort a w).1 hread)
    exact ⟨w₁, w₂, hw, (hlong _ _).2 hadded⟩
  · intro a w hread
    obtain ⟨b, v, hother⟩ := h.refuses a w ((hlong a w).1 hread)
    exact ⟨b, v, (hshort b v).2 hother⟩

/-- Resolving an object treats its other members as it would without a member of a name of its
own. -/
theorem Json.resolve_object_insert {name : String} {front back : List (String × Json)}
    (hfront : ∀ member ∈ front, member.1 ≠ name) (hback : ∀ member ∈ back, member.1 ≠ name)
    (json : Json) : ∃ front' back' : List (String × Json),
      (∀ member ∈ front', member.1 ≠ name) ∧ (∀ member ∈ back', member.1 ≠ name) ∧
      (Json.object (front ++ back)).resolve = .object (front' ++ back') ∧
      (Json.object (front ++ (name, json) :: back)).resolve =
        .object (front' ++ (name, json.resolve) :: back') := by
  have hmap {members : List (String × Json)} (h : ∀ member ∈ members, member.1 ≠ name) :
      ∀ member ∈ resolveMembers members, member.1 ≠ name := by
    rw [resolveMembers_eq_map, List.forall_mem_map]
    exact h
  obtain ⟨front', back', hshort, hlong⟩ :=
    Dictionary.entries_ofList_insert (hmap hfront) (hmap hback) json.resolve
  -- nothing comes in but the other members
  have hnames : ∀ member ∈ front' ++ back', member.1 ≠ name := by
    intro member hmember
    rw [← hshort] at hmember
    rcases List.mem_append.1 (Dictionary.mem_of_mem_ofList hmember) with hmem | hmem
    · exact hmap hfront member hmem
    · exact hmap hback member hmem
  rw [List.forall_mem_append] at hnames
  refine ⟨front', back', hnames.1, hnames.2, ?_, ?_⟩
  · rw [resolve, ← hshort]
    simp only [resolveMembers_eq_map, List.map_append]
  · rw [resolve, ← hlong]
    simp only [resolveMembers_eq_map, List.map_append, List.map_cons]

namespace Schema.HasSlot

variable {s : Schema α} {name : String} {schema : Schema β} {presence : Presence β}
  {set : β → α → α} {front back : List (String × Json)} {json : Json} {text short : Bytes}
  {absent b : β} {extra : List TimeoutWarning}

/-- One member more in a text that is read directly. -/
theorem readText_insert (h : s.HasSlot name schema presence set)
    (habsent : presence.absent? = some absent) (hfront : ∀ member ∈ front, member.1 ≠ name)
    (hback : ∀ member ∈ back, member.1 ≠ name)
    (htext : (Json.object (front ++ (name, json) :: back)).IsTreeOf text)
    (hshort : (Json.object (front ++ back)).IsTreeOf short) (htame : schema.tame json = true)
    (hjson : ∀ w, schema.extract json w = .ok b (w ++ extra)) :
    (s.readText text).Adds (s.readText short) (set b) extra := by
  obtain ⟨hadds, hrefuses⟩ := h.extract_insert_of_total habsent hfront hback hjson
  have htames : s.tame (.object (front ++ (name, json) :: back)) = true ↔
      s.tame (.object (front ++ back)) = true := by
    rw [h.tame_insert, htame, Bool.true_and]
  constructor
  · intro a w hread
    obtain ⟨htame, hx⟩ := (readText_eq_ok_iff hshort).1 hread
    obtain ⟨w₁, w₂, hw, hx⟩ := hadds a w hx
    exact ⟨w₁, w₂, hw, (readText_eq_ok_iff htext).2 ⟨htames.2 htame, hx⟩⟩
  · intro a w hread
    obtain ⟨htame, hx⟩ := (readText_eq_ok_iff htext).1 hread
    obtain ⟨a, w, hx⟩ := hrefuses a w hx
    exact ⟨a, w, (readText_eq_ok_iff hshort).2 ⟨htames.1 htame, hx⟩⟩

/-- One member more in a text that is read through a tree. -/
theorem readValue_insert (h : s.HasSlot name schema presence set)
    (habsent : presence.absent? = some absent) (hfront : ∀ member ∈ front, member.1 ≠ name)
    (hback : ∀ member ∈ back, member.1 ≠ name)
    (htext : (Json.object (front ++ (name, json) :: back)).IsTreeOf text)
    (hshort : (Json.object (front ++ back)).IsTreeOf short)
    (hjson : ∀ w, schema.extract json.resolve w = .ok b (w ++ extra)) :
    (s.readValue text).Adds (s.readValue short) (set b) extra := by
  obtain ⟨front', back', hfront', hback', hresolveShort, hresolve⟩ :=
    Json.resolve_object_insert hfront hback json
  obtain ⟨hadds, hrefuses⟩ := h.extract_insert_of_total habsent hfront' hback' hjson
  constructor
  · intro a w hread
    obtain ⟨j, hj, hx⟩ := readValue_eq_ok_iff.1 hread
    obtain rfl := hj.unique hshort
    rw [hresolveShort] at hx
    obtain ⟨w₁, w₂, hw, hx⟩ := hadds a w hx
    exact ⟨w₁, w₂, hw, readValue_eq_ok_iff.2 ⟨_, htext, hresolve ▸ hx⟩⟩
  · intro a w hread
    obtain ⟨j, hj, hx⟩ := readValue_eq_ok_iff.1 hread
    obtain rfl := hj.unique htext
    rw [hresolve] at hx
    obtain ⟨a, w, hx⟩ := hrefuses a w hx
    exact ⟨a, w, readValue_eq_ok_iff.2 ⟨_, hshort, hresolveShort ▸ hx⟩⟩

end Schema.HasSlot
end CredentialCeremony
