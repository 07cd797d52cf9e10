import CredentialCeremony.Proofs.Schema.Further

set_option autoImplicit false

/-!
# Values that are read off a document

Whatever a reader answers, the further members in it are those of a tree: their numbers fit 64 bits,
they are nested no deeper than the document may be, and no name is repeated in them
(`Schema.drawn_of_extract`, `Schema.drawn_of_read`). This holds of a reader that has gone astray in
the text as well, since it reads whole trees or nothing for the further members.

Main statement: a value that is read off any text, directly or through a tree, and keeps no double in
further members, is written as a text that is read back as the value in both ways
(`Schema.rereads_of_drawn`).
-/

namespace CredentialCeremony

/-! ## What a computation ensures -/

section Ensures

variable {ε σ α β : Type} {P : α → Prop} {Q : β → Prop}

/-- Whatever the computation answers has the property. -/
def Ensures (x : EStateM ε σ α) (P : α → Prop) : Prop := ∀ s a s', x s = .ok a s' → P a

theorem ensures_pure {a : α} (h : P a) : Ensures (pure a : EStateM ε σ α) P := by
  intro s b s' hb
  obtain ⟨rfl, -⟩ := pure_eq_ok_iff.1 hb
  exact h

theorem ensures_throw {e : ε} : Ensures (throw e : EStateM ε σ α) P := by
  intro s a s' ha
  exact absurd ha throw_ne_ok

theorem Ensures.bind {x : EStateM ε σ α} {f : α → EStateM ε σ β} (hx : Ensures x P)
    (hf : ∀ a, P a → Ensures (f a) Q) : Ensures (x >>= f) Q := by
  intro s b s' hb
  obtain ⟨a, s₁, ha, hb⟩ := bind_eq_ok_iff.1 hb
  exact hf a (hx s a s₁ ha) s₁ b s' hb

end Ensures

variable {α σ : Type} {P : α → Prop} {I : σ → Prop}

namespace Extractor

theorem all_ensures {x : Json → Extractor α} {items : List Json}
    (h : ∀ json ∈ items, Ensures (x json) P) : Ensures (all x items) fun as => ∀ a ∈ as, P a := by
  induction items with
  | nil => exact ensures_pure (by simp)
  | cons json items ih =>
    rw [List.forall_mem_cons] at h
    refine h.1.bind fun a ha => (ih h.2).bind fun as has => ?_
    exact ensures_pure (List.forall_mem_cons.2 ⟨ha, has⟩)

theorem attempt_ensures {x : Extractor α} (h : Ensures x P) :
    Ensures (attempt x) fun o => ∀ a, o = some a → P a := by
  rintro w o w' ho a rfl
  unfold attempt at ho
  cases hx : x w with
  | ok b w₁ =>
    rw [hx] at ho
    cases ho
    exact h w a _ hx
  | error e w₁ =>
    rw [hx] at ho
    cases ho

theorem readable_ensures {x : Json → Extractor α} {items : List Json}
    (h : ∀ json ∈ items, Ensures (x json) P) :
    Ensures (readable x items) fun as => ∀ a ∈ as, P a := by
  induction items with
  | nil => exact ensures_pure (by simp)
  | cons json items ih =>
    rw [List.forall_mem_cons] at h
    refine (attempt_ensures h.1).bind fun o ho => (ih h.2).bind fun as has => ?_
    apply ensures_pure
    intro a ha
    rcases List.mem_append.1 ha with ha | ha
    · exact ho a (Option.mem_toList.1 ha)
    · exact has a ha

/-- What every member preserves, the members in turn preserve. -/
theorem overMembers_ensures {x : String → Json → σ → Extractor σ} {members : List (String × Json)}
    (h : ∀ member ∈ members, ∀ s, I s → Ensures (x member.1 member.2 s) I) {s : σ} (hs : I s) :
    Ensures (Reader.overMembers x members s) I := by
  induction members generalizing s with
  | nil => exact ensures_pure hs
  | cons member members ih =>
    rw [List.forall_mem_cons] at h
    exact (h.1 s hs).bind fun s₁ hs₁ => ih h.2 hs₁

theorem nullOr_ensures {x : Json → Extractor α} {json : Json} (h : Ensures (x json) P) :
    Ensures (Reader.nullOr x json) fun o => ∀ a, o = some a → P a := by
  by_cases hnull : json = .null
  · subst hnull
    exact ensures_pure (by simp)
  · rw [Reader.nullOr_of_ne_null hnull]
    refine h.bind fun a ha => ensures_pure ?_
    rintro b ⟨⟩
    exact ha

end Extractor

namespace Reader

theorem nullable_ensures {r : Reader α} (h : Ensures r P) :
    Ensures (nullable r) fun o => ∀ a, o = some a → P a := by
  rintro c o c' ho a rfl
  rcases of_nullable_eq_ok ho with ⟨hnone, -⟩ | ⟨-, b, hb, hread⟩
  · cases hnone
  · cases hb
    exact h _ _ _ hread

theorem array_ensures {element : Nat → Reader α} {depth : Nat}
    (h : Ensures (element (depth - 1)) P) :
    Ensures (array depth element) fun as => ∀ a ∈ as, P a := by
  intro c as c' hread
  obtain ⟨t, d, c₁, -, rfl, helements, -⟩ := array_eq_ok_iff.1 hread
  -- on the rounds of the loop, each of which answers one element
  have go (as : List α) :
      ∀ first c c₁, ElementRounds (element d) first c as c₁ → ∀ a ∈ as, P a := by
    induction as with
    | nil => simp
    | cons a as ih =>
      rintro first c c₁ ⟨item, c₂, -, -, ha, hrounds⟩
      exact List.forall_mem_cons.2 ⟨h _ _ _ ha, ih _ _ _ hrounds⟩
  exact go as _ _ _ (elements_eq_ok_iff.1 helements).1

/-- What every member preserves, a loop over members preserves. -/
theorem members_ensures {member : String → σ → Reader σ}
    (h : ∀ name s, I s → Ensures (member name s) I) {s : σ} (hs : I s) :
    Ensures (members member s) I := by
  intro c s' c' hread
  obtain ⟨names, hrounds, -⟩ := members_eq_ok_iff.1 hread
  clear hread
  generalize true = first at hrounds
  -- on the rounds of the loop, each of which meets one name
  induction names generalizing first c s with
  | nil =>
    obtain ⟨rfl, -⟩ := hrounds
    exact hs
  | cons name names ih =>
    obtain ⟨start, quoted, behind, s₁, c₁, -, -, -, hmember, hrounds⟩ := hrounds
    exact ih (h name s hs _ _ _ hmember) _ _ hrounds

end Reader

/-! ## Trees that are readable -/

namespace Json

theorem Readable.items {depth : Nat} {items : List Json}
    (h : (Json.array items).Readable depth) : ∀ json ∈ items, json.Readable (depth - 1) := by
  intro json hjson
  refine ⟨allNumbers_array_iff.1 h.ranged json hjson, ?_⟩
  have hdepth : itemsDepth items + 1 ≤ depth := h.depth_le
  have hitem := itemsDepth_le_iff.1 (Nat.le_refl _) json hjson
  omega

theorem Readable.members {depth : Nat} {members : List (String × Json)}
    (h : (Json.object members).Readable depth) :
    ∀ member ∈ members, member.2.Readable (depth - 1) := by
  intro member hmember
  refine ⟨allNumbers_object_iff.1 h.ranged member hmember, ?_⟩
  have hdepth : membersDepth members + 1 ≤ depth := h.depth_le
  have hitem := membersDepth_le_iff.1 (Nat.le_refl _) member hmember
  omega

theorem Readable.resolve {depth : Nat} {json : Json} (h : json.Readable depth) :
    json.resolve.Readable depth :=
  ⟨h.ranged.resolve, Nat.le_trans json.depth_resolve_le h.depth_le⟩

/-- What is read as a tree is readable. -/
theorem readable_of_value {depth : Nat} : Ensures (Reader.value depth) (Readable depth) := by
  intro c json c' hread
  obtain ⟨_, hspelled, hdepth, hpure⟩ := (Reader.value_exact depth _ _ _).1 hread
  obtain ⟨rfl, -⟩ := pure_eq_ok_iff.1 hpure
  exact ⟨hspelled.ranged, hdepth⟩

end Json

/-! ## Extensible records -/

section Extensible

variable {κ : Type} {name : String} {known : Schema κ} {depth : Nat}

/-- What holds of the members of an extensible record that have been read so far. -/
structure Gathered (name : String) (known : Schema κ) (depth : Nat)
    (read : Option (Option κ) × List (String × Json)) : Prop where
  drawn : ∀ a, read.1 = some (some a) → known.Drawn depth a
  name_ne : ∀ member ∈ read.2, member.1 ≠ name
  readable : ∀ member ∈ read.2, member.2.Readable depth

theorem gathered_nil : Gathered name known depth (none, []) := by
  refine ⟨?_, by simp, by simp⟩
  rintro a ⟨⟩

theorem Gathered.insertKnown {read : Option (Option κ) × List (String × Json)}
    (h : Gathered name known depth read) {o : Option κ}
    (ho : ∀ a, o = some a → known.Drawn depth a) :
    Gathered name known depth (some o, read.2) := by
  refine ⟨fun a ha => ?_, h.name_ne, h.readable⟩
  exact ho a (Option.some.inj ha)

theorem Gathered.insertOther {read : Option (Option κ) × List (String × Json)}
    (h : Gathered name known depth read) {given : String} {json : Json} (hname : given ≠ name)
    (hjson : json.Readable depth) :
    Gathered name known depth (read.1, (given, json) :: read.2) :=
  ⟨h.drawn, List.forall_mem_cons.2 ⟨hname, h.name_ne⟩,
    List.forall_mem_cons.2 ⟨hjson, h.readable⟩⟩

/-- When all members have been read, the record is drawn. -/
theorem Gathered.finish {read : Option (Option κ) × List (String × Json)}
    (h : Gathered name known (depth - 1) read) : (Schema.extensible name known).Drawn depth
      ⟨read.1.getD none, .ofList (Json.resolveMembers read.2.reverse)⟩ := by
  obtain ⟨value, others⟩ := read
  refine ⟨?_, ?_, ?_, ?_⟩
  · intro a ha
    cases value with
    | none => cases ha
    | some o =>
      obtain rfl : o = some a := ha
      exact h.drawn a rfl
  -- the names are those of the members, whatever becomes of their values
  · intro hname
    obtain ⟨entry, hentry, hentryname⟩ := List.mem_map.1 hname
    have hresolved := Dictionary.mem_of_mem_ofList hentry
    rw [Json.resolveMembers_eq_map] at hresolved
    obtain ⟨member, hmember, rfl⟩ := List.mem_map.1 hresolved
    exact h.name_ne member (List.mem_reverse.1 hmember) hentryname
  · apply Json.forall_mem_ofList_resolveMembers
    intro member hmember
    exact (h.readable member (List.mem_reverse.1 hmember)).resolve
  · apply Json.forall_mem_ofList_resolveMembers
    intro member _
    exact member.2.distinct_resolve

theorem gathered_of_extensibleMember {given : String} {json : Json}
    {read : Option (Option κ) × List (String × Json)} (hjson : json.Readable depth)
    (hknown : Ensures (known.extract json) (known.Drawn depth))
    (h : Gathered name known depth read) :
    Ensures (extensibleMember name known given json read) (Gathered name known depth) := by
  intro w read' w' hread
  rcases extensibleMember_eq_ok_iff.1 hread with ⟨-, -, o, ho, rfl⟩ | ⟨hname, -, rfl⟩
  · exact h.insertKnown (Extractor.nullOr_ensures hknown w o w' ho)
  · exact h.insertOther hname hjson

theorem gathered_of_readExtensible {mode : Resumption} {given : String}
    {read : Option (Option κ) × List (String × Json)}
    (hknown : Ensures (known.read mode depth) (known.Drawn depth))
    (h : Gathered name known depth read) :
    Ensures (readExtensible mode name known depth given read) (Gathered name known depth) := by
  intro c read' c' hread
  obtain ⟨item, -, ⟨-, -, o, ho, rfl⟩ | ⟨hname, json, hjson, rfl⟩⟩ :=
    readExtensible_eq_ok_iff.1 hread
  · exact h.insertKnown (Reader.nullable_ensures hknown _ o _ ho)
  · exact h.insertOther hname (Json.readable_of_value _ _ _ hjson)

end Extensible

/-! ## Records -/

/-- The values of the fields that have been read so far are drawn. -/
def Fields.PartlyDrawn : {τ σ : Type} → Fields τ σ → (depth : Nat) → σ → Prop
  | _, _, .nil, _, _ => True
  | _, _, .cons _ _ schema _ rest, depth, (read, others) =>
    (∀ a, read = some a → schema.Drawn depth a) ∧ rest.PartlyDrawn depth others

namespace Fields

theorem partlyDrawn_unread (depth : Nat) : {τ σ : Type} → (fields : Fields τ σ) →
    fields.PartlyDrawn depth fields.unread
  | _, _, .nil => trivial
  | _, _, .cons _ _ _ _ rest => ⟨by rintro a ⟨⟩, partlyDrawn_unread depth rest⟩

/-- A record that is complete is drawn: what has not been read has a default. -/
theorem drawn_of_complete : {τ σ : Type} → (fields : Fields τ σ) → fields.Lawful → {depth : Nat} →
    {read : σ} → {parts : τ} → fields.PartlyDrawn depth read → fields.complete read = .ok parts →
    fields.Drawn depth parts
  | _, _, .nil, _, _, _, _, _, _ => trivial
  | _, _, .cons _ _ schema presence rest, h, depth, (read, others), parts, hread, hcomplete => by
    obtain ⟨-, habsent, hrest⟩ := h
    simp only [complete] at hcomplete
    cases hvalue : read <|> presence.absent? with
    | none =>
      rw [hvalue] at hcomplete
      cases hcomplete
    | some a =>
      rw [hvalue] at hcomplete
      cases hothers : rest.complete others with
      | error e =>
        rw [hothers] at hcomplete
        cases hcomplete
      | ok values =>
        rw [hothers] at hcomplete
        cases hcomplete
        refine ⟨?_, rest.drawn_of_complete hrest hread.2 hothers⟩
        cases read with
        | none => exact habsent a hvalue depth
        | some b => exact hread.1 a hvalue

/-- What an array leaves out is drawn. -/
theorem drawn_of_absent : {τ σ : Type} → (fields : Fields τ σ) → fields.Lawful → (depth : Nat) →
    {parts : τ} → fields.absent? = some parts → fields.Drawn depth parts
  | _, _, .nil, _, _, _, _ => trivial
  | _, _, .cons _ _ _ presence rest, hlawful, depth, (a, others), h => by
    obtain ⟨-, habsent, hrest⟩ := hlawful
    simp only [absent?, Option.bind_eq_bind, Option.bind_eq_some_iff] at h
    obtain ⟨b, hb, values, hvalues, hparts⟩ := h
    cases hparts
    exact ⟨habsent a hb depth, rest.drawn_of_absent hrest depth hvalues⟩

end Fields

mutual

/-- What is taken out of a readable tree is drawn. -/
theorem Schema.drawn_of_extract : {α : Type} → (s : Schema α) → s.Lawful → {depth : Nat} →
    {json : Json} → json.Readable depth → Ensures (s.extract json) (s.Drawn depth)
  | _, .string, _, _, _, _ | _, .bytes, _, _, _, _ | _, .flag, _, _, _, _ | _, .word, _, _, _, _
  | _, .integer, _, _, _, _ | _, .timeout, _, _, _, _ | _, .spelled _, _, _, _, _
  | _, .choice _, _, _, _, _ | _, .lenient _ _, _, _, _, _ | _, .lenientOption _, _, _, _, _
  | _, .dictionary, _, _, _, _ => fun _ _ _ _ => trivial
  | _, .nullable s, h, _, _, hjson => by
    rw [extract_nullable]
    exact Extractor.nullOr_ensures (s.drawn_of_extract h hjson)
  | _, .list s, h, depth, json, hjson => by
    cases json with
    | array items =>
      exact Extractor.all_ensures fun item hitem => s.drawn_of_extract h (hjson.items item hitem)
    | _ => exact ensures_throw
  | _, .tolerant s, h, depth, json, hjson => by
    cases json with
    | array items =>
      exact Extractor.readable_ensures fun item hitem =>
        s.drawn_of_extract h (hjson.items item hitem)
    | _ => exact ensures_throw
  | _, .listOrNull s, h, depth, json, hjson => by
    rw [extract_listOrNull]
    refine (Extractor.nullOr_ensures (s.drawn_of_extract h.1 hjson)).bind fun o ho => ?_
    apply ensures_pure
    cases o with
    | none => exact h.2 depth
    | some items => exact ho items rfl
  | _, .record fields layout, h, depth, json, hjson => by
    have hbuild {parts : _} (hparts : fields.Drawn (depth - 1) parts) :
        (Schema.record fields layout).Drawn depth (layout.build parts) := by
      rw [Schema.Drawn, Schema.AllFurther, layout.parts_build]
      exact hparts
    cases json with
    | object members =>
      have hmembers : Ensures (Reader.overMembers fields.extractMember members fields.unread)
          (fields.PartlyDrawn (depth - 1)) := by
        refine Extractor.overMembers_ensures ?_ (fields.partlyDrawn_unread _)
        intro member hmember read hread
        exact fields.partlyDrawn_of_extractMember h (hjson.members member hmember) _ hread
      refine hmembers.bind fun read hread => ?_
      refine Ensures.bind (P := fields.Drawn (depth - 1)) ?_ fun parts hparts =>
        ensures_pure (hbuild hparts)
      intro w parts w' hcomplete
      exact fields.drawn_of_complete h hread (Reader.extractor_ofExcept_eq_ok_iff.1 hcomplete).1
    | array items =>
      exact (fields.drawn_of_extractElements h items hjson.items).bind fun parts hparts =>
        ensures_pure (hbuild hparts)
    | _ => exact ensures_throw
  | _, .extensible name known, h, depth, json, hjson => by
    cases json with
    | object members =>
      have hmembers : Ensures (Reader.overMembers (extensibleMember name known) members
          (none, [])) (Gathered name known (depth - 1)) := by
        refine Extractor.overMembers_ensures ?_ gathered_nil
        intro member hmember read hread
        have hreadable := hjson.members member hmember
        exact gathered_of_extensibleMember hreadable (known.drawn_of_extract h hreadable) hread
      exact hmembers.bind fun read hread => ensures_pure hread.finish
    | _ => exact ensures_throw

theorem Fields.partlyDrawn_of_extractMember : {τ σ : Type} → (fields : Fields τ σ) →
    fields.Lawful → {depth : Nat} → {given : String} → {json : Json} → json.Readable depth →
    (read : σ) → fields.PartlyDrawn depth read →
    Ensures (fields.extractMember given json read) (fields.PartlyDrawn depth)
  | _, _, .nil, _, _, _, _, _, _, _ => ensures_pure trivial
  | _, _, .cons name aliases schema _ rest, h, depth, given, json, hjson, (known, read), hread => by
    simp only [Fields.extractMember]
    split
    · cases known with
      | some a => exact ensures_throw
      | none =>
        refine (schema.drawn_of_extract h.1 hjson).bind fun a ha => ensures_pure ⟨?_, hread.2⟩
        rintro b ⟨⟩
        exact ha
    · refine (rest.partlyDrawn_of_extractMember h.2.2 hjson read hread.2).bind fun taken htaken => ?_
      exact ensures_pure ⟨hread.1, htaken⟩

theorem Fields.drawn_of_extractElements : {τ σ : Type} → (fields : Fields τ σ) → fields.Lawful →
    {depth : Nat} → (items : List Json) → (∀ json ∈ items, json.Readable depth) →
    Ensures (fields.extractElements items) (fields.Drawn depth)
  | _, _, .nil, _, _, items, _ => by
    cases items with
    | nil => exact ensures_pure trivial
    | cons json items => exact ensures_throw
  | _, _, .cons _ _ schema presence rest, h, depth, items, hitems => by
    cases items with
    | nil =>
      simp only [Fields.extractElements]
      split
      · rename_i a others ha hothers
        exact ensures_pure ⟨h.2.1 a ha depth, rest.drawn_of_absent h.2.2 depth hothers⟩
      · exact ensures_throw
    | cons json items =>
      rw [List.forall_mem_cons] at hitems
      refine (schema.drawn_of_extract h.1 hitems.1).bind fun a ha => ?_
      refine (rest.drawn_of_extractElements h.2.2 items hitems.2).bind fun others hothers => ?_
      exact ensures_pure ⟨ha, hothers⟩

end

mutual

/-- What is read directly off any text is drawn, in whatever place the reader reads it. -/
theorem Schema.drawn_of_read (mode : Resumption) : {α : Type} → (s : Schema α) → s.Lawful →
    (depth : Nat) → Ensures (s.read mode depth) (s.Drawn depth)
  | _, .string, _, _ | _, .bytes, _, _ | _, .flag, _, _ | _, .word, _, _ | _, .integer, _, _
  | _, .timeout, _, _ | _, .spelled _, _, _ | _, .choice _, _, _ | _, .lenient _ _, _, _
  | _, .lenientOption _, _, _ | _, .dictionary, _, _ => fun _ _ _ _ => trivial
  | _, .nullable s, h, depth => Reader.nullable_ensures (s.drawn_of_read mode h depth)
  | _, .list s, h, depth => Reader.array_ensures (s.drawn_of_read mode h (depth - 1))
  | _, .tolerant s, h, depth => by
    intro c items c' hread
    have hexact : Reader.Exact depth ((Schema.tolerant s).read mode depth)
        (Schema.tolerant s).extract := extract_tolerant s ▸ Reader.tolerant_exact s.extract depth
    obtain ⟨json, hspelled, hdepth, hx⟩ := (hexact _ _ _).1 hread
    have hjson : json.Readable depth := ⟨hspelled.ranged, hdepth⟩
    exact (Schema.tolerant s).drawn_of_extract h hjson _ _ _ hx
  | _, .listOrNull s, h, depth => by
    refine (Reader.nullable_ensures (s.drawn_of_read mode h.1 depth)).bind fun o ho => ?_
    apply ensures_pure
    cases o with
    | none => exact h.2 depth
    | some items => exact ho items rfl
  | _, .record fields layout, h, depth => by
    intro c a c' hread
    obtain ⟨d, parts, t, c₁, rfl, rfl, hparts⟩ := read_record_eq_ok_iff.1 hread
    rw [Schema.Drawn, Schema.AllFurther, layout.parts_build]
    rcases hparts with ⟨read, -, hmembers, hcomplete, -⟩ | ⟨-, helements, -⟩
    · refine fields.drawn_of_complete h ?_ hcomplete
      refine Reader.members_ensures ?_ (fields.partlyDrawn_unread d) _ _ _ hmembers
      exact fun name read hread => fields.partlyDrawn_of_readMember mode h d name read hread
    · exact fields.drawn_of_readElements mode h d true _ _ _ helements
  | _, .extensible name known, h, depth => by
    intro c a c' hread
    obtain ⟨d, read, t, c₁, rfl, -, hmembers, -, rfl⟩ := read_extensible_eq_ok_iff.1 hread
    apply Gathered.finish
    refine Reader.members_ensures ?_ gathered_nil _ _ _ hmembers
    exact fun given read hread => gathered_of_readExtensible (known.drawn_of_read mode h d) hread

theorem Fields.partlyDrawn_of_readMember (mode : Resumption) : {τ σ : Type} →
    (fields : Fields τ σ) → fields.Lawful → (depth : Nat) → (given : String) → (read : σ) →
    fields.PartlyDrawn depth read →
    Ensures (fields.readMember mode depth given read) (fields.PartlyDrawn depth)
  | _, _, .nil, _, _, _, _, _ => fun _ _ _ _ => trivial
  | _, _, .cons _ _ schema _ rest, h, depth, given, (known, read), hread => by
    intro c read' c' htaken
    rcases readMember_cons_eq_ok_iff.1 htaken with
      ⟨-, -, item, a, -, ha, rfl⟩ | ⟨-, taken, hothers, rfl⟩
    · refine ⟨?_, hread.2⟩
      rintro b ⟨⟩
      exact schema.drawn_of_read mode h.1 depth _ _ _ ha
    · refine ⟨hread.1, ?_⟩
      exact rest.partlyDrawn_of_readMember mode h.2.2 depth given read hread.2 _ _ _ hothers

theorem Fields.drawn_of_readElements (mode : Resumption) : {τ σ : Type} → (fields : Fields τ σ) →
    fields.Lawful → (depth : Nat) → (first : Bool) →
    Ensures (fields.readElements mode depth first) (fields.Drawn depth)
  | _, _, .nil, _, _, _ => fun _ _ _ _ => trivial
  | _, _, .cons _ _ schema _ rest, h, depth, first => by
    intro c parts c' hread
    rcases readElements_cons_eq_ok_iff.1 hread with
      ⟨t, -, a, others, ha, hothers, rfl, -⟩ | ⟨item, -, -, a, c₁, ha, others, hothers, rfl⟩
    · exact ⟨h.2.1 a ha depth, rest.drawn_of_absent h.2.2 depth hothers⟩
    · exact ⟨schema.drawn_of_read mode h.1 depth _ _ _ ha,
        rest.drawn_of_readElements mode h.2.2 depth false _ _ _ hothers⟩

end

/-! ## Reading back what was read -/

/-- The value is read off some text, directly or through a tree. -/
def Schema.Obtained (s : Schema α) (a : α) : Prop :=
  ∃ text, (s.readText text).value? = some a ∨ (s.readValue text).value? = some a

/-- The text that is written for the value is read back as the value without a warning, directly and
through a tree, and whatever is read back is written as the same text. -/
structure Schema.Rereads (s : Schema α) (a : α) : Prop where
  direct : s.readText (utf8 (s.text a)) = ⟨.ok a, []⟩
  through : s.readValue (utf8 (s.text a)) = ⟨.ok a, []⟩
  text_eq : ∀ b, (s.readText (utf8 (s.text a))).value? = some b ∨
    (s.readValue (utf8 (s.text a))).value? = some b → s.text b = s.text a

theorem Schema.Rereads.of_reading {s : Schema α} {a : α}
    (hdirect : s.readText (utf8 (s.text a)) = ⟨.ok a, []⟩)
    (hthrough : s.readValue (utf8 (s.text a)) = ⟨.ok a, []⟩) : s.Rereads a := by
  refine ⟨hdirect, hthrough, ?_⟩
  rintro b (hb | hb)
  · rw [hdirect] at hb
    cases hb
    rfl
  · rw [hthrough] at hb
    cases hb
    rfl

/-- A value that is read off a text is drawn under the depth of documents. -/
theorem Schema.Obtained.drawn {s : Schema α} (hs : s.Lawful) {a : α} (h : s.Obtained a) :
    s.Drawn Reader.maxDepth a := by
  obtain ⟨text, hread | hread⟩ := h
  · obtain ⟨c, hread, -⟩ := Reader.run_outcome_eq_ok_iff.1 (Reading.value?_eq_some_iff.1 hread)
    exact s.drawn_of_read .inPlace hs Reader.maxDepth _ _ _ hread
  · obtain ⟨json, w, ⟨⟨rest, hspelled, -⟩, hdepth⟩, hx⟩ :=
      Schema.readValue_value?_eq_some_iff.1 hread
    have hjson : json.Readable Reader.maxDepth := ⟨hspelled.ranged, hdepth⟩
    exact s.drawn_of_extract hs hjson.resolve _ _ _ hx

/-- A value that was drawn, and in which no further member holds a double, is read back. -/
theorem Schema.rereads_of_drawn {s : Schema α} (hfaithful : s.faithful = true) (hlawful : s.Lawful)
    (hheight : s.height ≤ Reader.maxDepth) {depth : Nat} (hdepth : depth ≤ Reader.maxDepth) {a : α}
    (h : s.Drawn depth a) (hintegral : s.Integral a) : s.Rereads a := by
  have hfits := s.fits_of_drawn hlawful depth a h hintegral
  have hle : (s.toJson a).depth ≤ Reader.maxDepth :=
    Nat.le_trans (s.depth_toJson_le depth a h) (Nat.max_le.2 ⟨hheight, hdepth⟩)
  exact .of_reading (Schema.readText_text hfaithful hfits hle)
    (Schema.readValue_text hfaithful hfits hle)

/-- The text that is written for such a value spells what is written. -/
theorem Schema.fills_of_drawn {s : Schema α} (hlawful : s.Lawful) {depth : Nat} {a : α}
    (h : s.Drawn depth a) (hintegral : s.Integral a) : (s.toJson a).Fills (utf8 (s.text a)) :=
  (s.whole_toJson a (s.fits_of_drawn hlawful depth a h hintegral)).fills

/-- A value that was read off a text is read back, too. -/
theorem Schema.Obtained.rereads {s : Schema α} {a : α} (h : s.Obtained a)
    (hfaithful : s.faithful = true) (hlawful : s.Lawful) (hheight : s.height ≤ Reader.maxDepth)
    (hintegral : s.Integral a) : s.Rereads a :=
  Schema.rereads_of_drawn hfaithful hlawful hheight (Nat.le_refl _) (h.drawn hlawful) hintegral

/-- Where a schema keeps no further members, nothing is left to demand of the value. -/
theorem Schema.Obtained.rereads_of_closed {s : Schema α} {a : α} (h : s.Obtained a)
    (hfaithful : s.faithful = true) (hclosed : s.closed = true)
    (hheight : s.height ≤ Reader.maxDepth) : s.Rereads a :=
  h.rereads hfaithful (s.lawful_of_closed hclosed) hheight (s.allFurther_of_closed hclosed 0 a)

end CredentialCeremony
