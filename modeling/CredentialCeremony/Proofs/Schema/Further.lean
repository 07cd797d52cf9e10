import CredentialCeremony.Proofs.Json.Resolution
import CredentialCeremony.Proofs.Schema.RoundTrip

set_option autoImplicit false

/-!
# Further members

The only part of a value that its schema does not fix are the further members of the extensible
records in it: any names, and any trees for values. `Schema.AllFurther` says that something holds of
all of them, each at the depth that is left where it stands.

A value is *drawn* under a depth if its further members could have been read there
(`Schema.Drawn`). Such a value is written no deeper than that depth, or than its schema is high
(`Schema.depth_toJson_le`), and it fits its schema unless a further member holds a double
(`Schema.fits_of_drawn`).
-/

namespace CredentialCeremony

variable {α : Type}

mutual

/-- Something holds of the further members of every extensible record in a value: it is told the
depth that is left for them and the name of the known member. -/
def Schema.AllFurther (p : Nat → String → Dictionary Json → Prop) :
    {α : Type} → Schema α → (depth : Nat) → α → Prop
  | _, .nullable s, depth, o => ∀ a, o = some a → s.AllFurther p depth a
  | _, .list s, depth, items => ∀ a ∈ items, s.AllFurther p (depth - 1) a
  | _, .tolerant s, depth, items => ∀ a ∈ items, s.AllFurther p (depth - 1) a
  | _, .listOrNull s, depth, items => s.AllFurther p depth items
  | _, .record fields layout, depth, a => fields.AllFurther p (depth - 1) (layout.parts a)
  | _, .extensible name known, depth, e =>
    (∀ a, e.known = some a → known.AllFurther p (depth - 1) a) ∧ p (depth - 1) name e.others
  | _, _, _, _ => True

/-- This holds of the value of every field. -/
def Fields.AllFurther (p : Nat → String → Dictionary Json → Prop) :
    {τ σ : Type} → Fields τ σ → (depth : Nat) → τ → Prop
  | _, _, .nil, _, _ => True
  | _, _, .cons _ _ schema _ rest, depth, (a, others) =>
    schema.AllFurther p depth a ∧ rest.AllFurther p depth others

end

mutual

/-- Values of a closed schema have no further members. -/
theorem Schema.allFurther_of_closed {p : Nat → String → Dictionary Json → Prop} : {α : Type} →
    (s : Schema α) → s.closed = true → (depth : Nat) → (a : α) → s.AllFurther p depth a
  | _, .string, _, _, _ | _, .bytes, _, _, _ | _, .flag, _, _, _ | _, .word, _, _, _
  | _, .integer, _, _, _ | _, .timeout, _, _, _ | _, .choice _, _, _, _ | _, .lenient _ _, _, _, _
  | _, .lenientOption _, _, _, _ | _, .dictionary, _, _, _ => trivial
  | _, .nullable s, h, depth, _ => fun a _ => s.allFurther_of_closed h depth a
  | _, .list s, h, depth, _ => fun a _ => s.allFurther_of_closed h (depth - 1) a
  | _, .tolerant s, h, depth, _ => fun a _ => s.allFurther_of_closed h (depth - 1) a
  | _, .listOrNull s, h, depth, items => s.allFurther_of_closed h depth items
  | _, .record fields layout, h, depth, a =>
    fields.allFurther_of_closed h (depth - 1) (layout.parts a)

theorem Fields.allFurther_of_closed {p : Nat → String → Dictionary Json → Prop} : {τ σ : Type} →
    (fields : Fields τ σ) → fields.closed = true → (depth : Nat) → (parts : τ) →
    fields.AllFurther p depth parts
  | _, _, .nil, _, _, _ => trivial
  | _, _, .cons _ _ schema _ rest, h, depth, (a, others) => by
    rw [Fields.closed, Bool.and_eq_true] at h
    exact ⟨schema.allFurther_of_closed h.1 depth a, rest.allFurther_of_closed h.2 depth others⟩

end

/-- A field of a closed schema adds no further members to those of the other fields. -/
theorem Fields.AllFurther.closed {τ σ : Type} {p : Nat → String → Dictionary Json → Prop}
    {name : String} {aliases : List String} {schema : Schema α} {presence : Presence α}
    {rest : Fields τ σ} {depth : Nat} {a : α} {others : τ} (h : schema.closed = true)
    (hrest : rest.AllFurther p depth others) :
    (Fields.cons name aliases schema presence rest).AllFurther p depth (a, others) :=
  ⟨schema.allFurther_of_closed h depth a, hrest⟩

/-! ## Values that were read -/

/-- A tree that could have been read under a depth. -/
structure Json.Readable (depth : Nat) (json : Json) : Prop where
  ranged : json.Ranged
  depth_le : json.depth ≤ depth

/-- Further members that could have been read under a depth beside a known member of that name. -/
structure Dictionary.FurtherMembers (depth : Nat) (name : String) (others : Dictionary Json) :
    Prop where
  name_not_mem : name ∉ others.keys
  readable : ∀ member ∈ others.entries, member.2.Readable depth
  distinct : ∀ member ∈ others.entries, member.2.Distinct

/-- The further members in a value could have been read under a depth. -/
def Schema.Drawn (s : Schema α) (depth : Nat) (a : α) : Prop :=
  s.AllFurther Dictionary.FurtherMembers depth a

/-- This holds of the values of fields. -/
def Fields.Drawn {τ σ : Type} (fields : Fields τ σ) (depth : Nat) (parts : τ) : Prop :=
  fields.AllFurther Dictionary.FurtherMembers depth parts

/-- No further member in a value holds a double. -/
def Schema.Integral (s : Schema α) (a : α) : Prop :=
  s.AllFurther (fun _ _ others => ∀ member ∈ others.entries, member.2.Integral) 0 a

/-- No further member of an extensible record holds a double. -/
def Extensible.Integral {κ : Type} (e : Extensible κ) : Prop :=
  ∀ member ∈ e.others.entries, member.2.Integral

/-! ## Depth -/

mutual

/-- The depth that the values of a schema have at most, further members aside. -/
def Schema.height : {α : Type} → Schema α → Nat
  | _, .nullable s => s.height
  | _, .list s => s.height + 1
  | _, .tolerant s => s.height + 1
  | _, .listOrNull s => s.height
  | _, .dictionary => 1
  | _, .record fields _ => fields.height + 1
  | _, .extensible _ known => known.height + 1
  | _, _ => 0

/-- The depth that the values of the fields have at most. -/
def Fields.height : {τ σ : Type} → Fields τ σ → Nat
  | _, _, .nil => 0
  | _, _, .cons _ _ schema _ rest => max schema.height rest.height

end

theorem Json.itemsDepth_map_le {f : α → Json} {items : List α} {n : Nat}
    (h : ∀ a ∈ items, (f a).depth ≤ n) : Json.itemsDepth (items.map f) ≤ n :=
  Json.itemsDepth_le_iff.2 (List.forall_mem_map.2 h)

mutual

/-- What is written for a value is nested no deeper than its schema is high, or than the value was
drawn. -/
theorem Schema.depth_toJson_le : {α : Type} → (s : Schema α) → (depth : Nat) → (a : α) →
    s.Drawn depth a → (s.toJson a).depth ≤ max s.height depth
  | _, .string, _, _, _ | _, .bytes, _, _, _ | _, .flag, _, _, _ | _, .word, _, _, _
  | _, .integer, _, _, _ | _, .timeout, _, none, _ | _, .timeout, _, some _, _
  | _, .spelled _, _, _, _ | _, .choice _, _, _, _ | _, .lenient _ _, _, _, _
  | _, .lenientOption _, _, none, _ | _, .lenientOption _, _, some _, _
  | _, .nullable _, _, none, _ => Nat.zero_le _
  | _, .nullable s, depth, some a, h => s.depth_toJson_le depth a (h a rfl)
  | _, .list s, depth, items, h => by
    have hitems := Json.itemsDepth_map_le fun a ha => s.depth_toJson_le (depth - 1) a (h a ha)
    rw [Schema.toJson, Schema.height, Json.depth]
    omega
  | _, .tolerant s, depth, items, h => by
    have hitems := Json.itemsDepth_map_le fun a ha => s.depth_toJson_le (depth - 1) a (h a ha)
    rw [Schema.toJson, Schema.height, Json.depth]
    omega
  | _, .listOrNull s, depth, items, h => s.depth_toJson_le depth items h
  | _, .dictionary, depth, d, _ => by
    rw [Schema.toJson, Schema.height, Json.depth]
    have hentries :
        Json.membersDepth (d.entries.map fun entry => (entry.1, .string entry.2)) ≤ 0 := by
      rw [Json.membersDepth_le_iff, List.forall_mem_map]
      exact fun entry _ => Nat.le_refl 0
    omega
  | _, .record fields layout, depth, a, h => by
    rw [Schema.toJson, Schema.height, Json.depth]
    have hmembers := fields.depth_members_le (depth - 1) (layout.parts a) h
    omega
  | _, .extensible name known, depth, ⟨o, others⟩, h => by
    have hothers : Json.membersDepth others.entries ≤ depth - 1 :=
      Json.membersDepth_le_iff.2 fun member hmember => (h.2.readable member hmember).depth_le
    cases o with
    | none =>
      change Json.membersDepth others.entries + 1 ≤ max (known.height + 1) depth
      omega
    | some a =>
      have hknown := known.depth_toJson_le (depth - 1) a (h.1 a rfl)
      change max (known.toJson a).depth (Json.membersDepth others.entries) + 1 ≤
        max (known.height + 1) depth
      omega

theorem Fields.depth_members_le : {τ σ : Type} → (fields : Fields τ σ) → (depth : Nat) →
    (parts : τ) → fields.Drawn depth parts →
      Json.membersDepth (fields.members parts) ≤ max fields.height depth
  | _, _, .nil, _, _, _ => Nat.zero_le _
  | _, _, .cons _ _ schema presence rest, depth, (a, others), h => by
    have hrest := rest.depth_members_le depth others h.2
    have ha := schema.depth_toJson_le depth a h.1
    unfold Fields.members Fields.height
    split
    · omega
    · rw [Json.membersDepth]
      omega

end

/-- What a closed schema writes is nested no deeper than the schema is high. -/
theorem Schema.depth_toJson_le_height {s : Schema α} (h : s.closed = true) (a : α) :
    (s.toJson a).depth ≤ s.height := by
  have hdepth := s.depth_toJson_le 0 a (s.allFurther_of_closed h 0 a)
  omega

/-! ## Lawful schemas -/

mutual

/-- Whether every value that the schema itself puts in, for a field that is left out or for null, is
drawn as any other, and every value that is spelled by rules of its own is read back. -/
def Schema.Lawful : {α : Type} → Schema α → Prop
  | _, .spelled s => ∀ a, s.parse (s.spell a) = .ok a
  | _, .nullable s => s.Lawful
  | _, .list s => s.Lawful
  | _, .tolerant s => s.Lawful
  | _, .listOrNull s => s.Lawful ∧ ∀ depth, s.Drawn depth []
  | _, .record fields _ => fields.Lawful
  | _, .extensible _ known => known.Lawful
  | _, _ => True

/-- This holds of every field. -/
def Fields.Lawful : {τ σ : Type} → Fields τ σ → Prop
  | _, _, .nil => True
  | _, _, .cons _ _ schema presence rest =>
    schema.Lawful ∧ (∀ a, presence.absent? = some a → ∀ depth, schema.Drawn depth a) ∧ rest.Lawful

end

mutual

theorem Schema.lawful_of_closed : {α : Type} → (s : Schema α) → s.closed = true → s.Lawful
  | _, .string, _ | _, .bytes, _ | _, .flag, _ | _, .word, _ | _, .integer, _ | _, .timeout, _
  | _, .choice _, _ | _, .lenient _ _, _ | _, .lenientOption _, _ | _, .dictionary, _ => trivial
  | _, .nullable s, h => s.lawful_of_closed h
  | _, .list s, h => s.lawful_of_closed h
  | _, .tolerant s, h => s.lawful_of_closed h
  | _, .listOrNull s, h =>
    ⟨s.lawful_of_closed h, fun depth => s.allFurther_of_closed h depth []⟩
  | _, .record fields _, h => fields.lawful_of_closed h

theorem Fields.lawful_of_closed : {τ σ : Type} → (fields : Fields τ σ) → fields.closed = true →
    fields.Lawful
  | _, _, .nil, _ => trivial
  | _, _, .cons _ _ schema _ rest, h => by
    rw [Fields.closed, Bool.and_eq_true] at h
    exact ⟨schema.lawful_of_closed h.1, fun a _ depth => schema.allFurther_of_closed h.1 depth a,
      rest.lawful_of_closed h.2⟩

end

/-- A closed field adds nothing to what the other fields have to fulfil. -/
theorem Fields.Lawful.closed {τ σ : Type} {name : String} {aliases : List String}
    {schema : Schema α} {presence : Presence α} {rest : Fields τ σ} (h : schema.closed = true)
    (hrest : rest.Lawful) : (Fields.cons name aliases schema presence rest).Lawful :=
  ⟨schema.lawful_of_closed h, fun a _ depth => schema.allFurther_of_closed h depth a, hrest⟩

/-- A field that is absent unless given is as lawful as its schema. -/
theorem Fields.Lawful.optional {τ σ : Type} {name : String} {schema : Schema α}
    {rest : Fields τ σ} (h : schema.Lawful) (hrest : rest.Lawful) :
    (Fields.optional name (.nullable schema) rest).Lawful := by
  refine ⟨h, ?_, hrest⟩
  rintro o habsent depth a rfl
  cases habsent

/-- A required field is as lawful as its schema. -/
theorem Fields.Lawful.required {τ σ : Type} {name : String} {schema : Schema α}
    {rest : Fields τ σ} (h : schema.Lawful) (hrest : rest.Lawful) :
    (Fields.required name schema rest).Lawful := by
  refine ⟨h, ?_, hrest⟩
  intro a habsent
  cases habsent

/-- An extensible record that may be left out is as lawful as its known member. -/
theorem Fields.Lawful.defaulted {κ τ σ : Type} {name key : String} {known : Schema κ}
    {rest : Fields τ σ} (h : known.Lawful) (hrest : rest.Lawful) :
    (Fields.defaulted name (.extensible key known) default rest).Lawful := by
  refine ⟨h, ?_, hrest⟩
  rintro e habsent depth
  cases habsent
  refine ⟨?_, ⟨?_, ?_, ?_⟩⟩
  · rintro a ⟨⟩
  · exact List.not_mem_nil
  · exact fun member hmember => absurd hmember List.not_mem_nil
  · exact fun member hmember => absurd hmember List.not_mem_nil

mutual

/-- A value that was drawn fits a lawful schema if no further member in it holds a double. -/
theorem Schema.fits_of_drawn : {α : Type} → (s : Schema α) → s.Lawful → (depth : Nat) → (a : α) →
    s.Drawn depth a → s.Integral a → s.Fits a
  | _, .string, _, _, _, _, _ | _, .bytes, _, _, _, _, _ | _, .flag, _, _, _, _, _
  | _, .word, _, _, _, _, _ | _, .integer, _, _, _, _, _ | _, .timeout, _, _, _, _, _
  | _, .choice _, _, _, _, _, _ | _, .lenient _ _, _, _, _, _, _
  | _, .lenientOption _, _, _, _, _, _ | _, .dictionary, _, _, _, _, _ => trivial
  | _, .spelled _, h, _, a, _, _ => h a
  | _, .nullable s, h, depth, _, hdrawn, hintegral => fun a ha =>
    s.fits_of_drawn h depth a (hdrawn a ha) (hintegral a ha)
  | _, .list s, h, depth, _, hdrawn, hintegral => fun a ha =>
    s.fits_of_drawn h (depth - 1) a (hdrawn a ha) (hintegral a ha)
  | _, .tolerant s, h, depth, _, hdrawn, hintegral => fun a ha =>
    s.fits_of_drawn h (depth - 1) a (hdrawn a ha) (hintegral a ha)
  | _, .listOrNull s, h, depth, items, hdrawn, hintegral =>
    s.fits_of_drawn h.1 depth items hdrawn hintegral
  | _, .record fields layout, h, depth, a, hdrawn, hintegral =>
    fields.fits_of_drawn h (depth - 1) (layout.parts a) hdrawn hintegral
  | _, .extensible _ known, h, depth, e, hdrawn, hintegral => by
    obtain ⟨hknown, hfurther⟩ := hdrawn
    refine ⟨fun a ha => ?_, hfurther.name_not_mem, ?_, ?_⟩
    · exact known.fits_of_drawn h (depth - 1) a (hknown a ha) (hintegral.1 a ha)
    · rw [Json.membersWhole_iff]
      intro member hmember
      exact Json.whole_of_ranged (hfurther.readable member hmember).ranged
        (hintegral.2 member hmember)
    · exact Json.membersDistinct_iff.2 hfurther.distinct

theorem Fields.fits_of_drawn : {τ σ : Type} → (fields : Fields τ σ) → fields.Lawful →
    (depth : Nat) → (parts : τ) → fields.Drawn depth parts →
    fields.AllFurther (fun _ _ others => ∀ member ∈ others.entries, member.2.Integral) 0 parts →
    fields.Fits parts
  | _, _, .nil, _, _, _, _, _ => trivial
  | _, _, .cons _ _ schema _ rest, h, depth, (a, others), hdrawn, hintegral =>
    ⟨schema.fits_of_drawn h.1 depth a hdrawn.1 hintegral.1,
      rest.fits_of_drawn h.2.2 depth others hdrawn.2 hintegral.2⟩

end

end CredentialCeremony
