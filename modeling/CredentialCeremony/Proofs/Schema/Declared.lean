import CredentialCeremony.Proofs.Schema.Frame

set_option autoImplicit false

/-!
# What a record declares

The names of the fields of a record and what is read for them, without the schemas of their values.
The members of a record are told apart by the field that they stand for, which is the first one of
their name (`standsFor?`), and beyond this neither their names nor their order count
(`Schema.answer?_object_congr`). The elements of an array stand for the fields in turn, and a full
array is read just as the object of the same values under the names of the fields
(`Schema.extract_array_eq_object`).
-/

namespace CredentialCeremony

variable {ι α τ σ : Type}

/-- A field as a record declares it: its name, the other names that are read for it, and whether a
record without it is refused. -/
structure FieldInfo where
  name : String
  aliases : List String
  required : Bool
  deriving DecidableEq, Repr

namespace FieldInfo

/-- The field is read under this name. -/
def Named (field : FieldInfo) (given : String) : Prop :=
  given = field.name ∨ given ∈ field.aliases

instance (field : FieldInfo) (given : String) : Decidable (field.Named given) :=
  inferInstanceAs (Decidable (_ ∨ _))

/-- A field without which a record is refused, under one name only. -/
def needed (name : String) : FieldInfo := ⟨name, [], true⟩

/-- A field that may be missing, under one name only. -/
def possible (name : String) : FieldInfo := ⟨name, [], false⟩

end FieldInfo

/-- The fields as they are declared, in order. -/
def Fields.declared : {τ σ : Type} → Fields τ σ → List FieldInfo
  | _, _, .nil => []
  | _, _, .cons name aliases _ presence rest =>
    ⟨name, aliases, presence.absent?.isNone⟩ :: rest.declared

/-- The values of the schema are records with these fields. -/
def Schema.Declares (s : Schema α) (declared : List FieldInfo) : Prop :=
  ∃ (τ σ : Type) (fields : Fields τ σ) (layout : Layout τ α),
    s = .record fields layout ∧ fields.declared = declared

/-- The position of the field that a member of this name stands for, if there is one. -/
def standsFor? (declared : List FieldInfo) (given : String) : Option Nat :=
  declared.findIdx? fun field => field.Named given

/-- The items that are given for the field at a position. -/
def itemsFor (declared : List FieldInfo) (index : Nat) (members : List (String × ι)) : List ι :=
  (members.filter fun member => standsFor? declared member.1 = some index).map Prod.snd

/-- No field is read under the name of a later one. -/
def Apart (declared : List FieldInfo) : Prop :=
  declared.Pairwise fun field later => ¬ field.Named later.name

instance (declared : List FieldInfo) : Decidable (Apart declared) :=
  inferInstanceAs (Decidable (List.Pairwise _ _))

/-! ## Which field a member stands for -/

section StandsFor

variable {field : FieldInfo} {declared : List FieldInfo} {given : String} {index : Nat}

theorem standsFor?_of_named (h : field.Named given) :
    standsFor? (field :: declared) given = some 0 := by
  rw [standsFor?, List.findIdx?_cons, if_pos (decide_eq_true h)]

theorem standsFor?_of_not_named (h : ¬ field.Named given) :
    standsFor? (field :: declared) given = (standsFor? declared given).map (· + 1) := by
  rw [standsFor?, List.findIdx?_cons, if_neg (by simpa using h), standsFor?]

/-- A member stands for the first field exactly if it has one of its names. -/
theorem standsFor?_eq_zero_iff :
    standsFor? (field :: declared) given = some 0 ↔ field.Named given := by
  by_cases h : field.Named given
  · exact iff_of_true (standsFor?_of_named h) h
  · rw [standsFor?_of_not_named h]
    simp [h]

theorem standsFor?_eq_succ_iff : standsFor? (field :: declared) given = some (index + 1) ↔
    ¬ field.Named given ∧ standsFor? declared given = some index := by
  by_cases h : field.Named given
  · rw [standsFor?_of_named h]
    simp [h]
  · rw [standsFor?_of_not_named h]
    simp [h]

end StandsFor

section ItemsFor

variable {name : String} {aliases : List String} {required : Bool} {declared : List FieldInfo}
  {members : List (String × ι)}

theorem itemsFor_zero : itemsFor (⟨name, aliases, required⟩ :: declared) 0 members =
    (ownMembers name aliases members).map Prod.snd := by
  simp only [itemsFor, standsFor?_eq_zero_iff, FieldInfo.Named, ownMembers]

theorem itemsFor_succ (index : Nat) :
    itemsFor (⟨name, aliases, required⟩ :: declared) (index + 1) members =
      itemsFor declared index (otherMembers name aliases members) := by
  rw [itemsFor, itemsFor, otherMembers, List.filter_filter]
  apply congrArg (List.map Prod.snd)
  apply List.filter_congr
  intro member _
  rw [Bool.eq_iff_iff, Bool.and_eq_true, decide_eq_true_eq, decide_eq_true_eq, decide_eq_true_eq,
    standsFor?_eq_succ_iff, and_comm]
  rfl

variable {gives : {α : Type} → Schema α → ι → α → Prop}

/-- A field looks at the items that are given for it, and at none of them if there are several. -/
theorem Presence.Settles.congr {γ : Type} {presence : Presence γ} {gives : ι → γ → Prop}
    {known : Option γ} {own own' : List (String × ι)} {c : γ}
    (h : (own.map Prod.snd).Perm (own'.map Prod.snd)) (hsettles : presence.Settles gives known own c) :
    presence.Settles gives known own' c := by
  cases known with
  | some b =>
    obtain ⟨rfl, hc⟩ := hsettles
    exact ⟨List.map_eq_nil_iff.1 h.symm.eq_nil, hc⟩
  | none =>
    obtain ⟨hone, hgiven⟩ := hsettles
    rw [← List.head?_map] at hgiven
    refine ⟨?_, ?_⟩
    · have hlength := h.length_eq
      rw [List.length_map, List.length_map] at hlength
      exact hlength ▸ hone
    · rw [← List.head?_map]
      -- a list of one element at most has one order only
      rcases hown : own.map Prod.snd with _ | ⟨item, _ | ⟨second, more⟩⟩
      · rw [hown] at h hgiven
        rwa [h.symm.eq_nil]
      · rw [hown] at h hgiven
        rwa [List.perm_singleton.1 h.symm]
      · have hlength := congrArg List.length hown
        simp only [List.length_map, List.length_cons] at hlength
        omega

/-- What the fields hold in the end depends only on the items that are given for each of them. -/
theorem Fields.Settle.congr : {τ σ : Type} → {fields : Fields τ σ} → {read : σ} →
    {members members' : List (String × ι)} → {parts : τ} →
    (∀ index, (itemsFor fields.declared index members).Perm
      (itemsFor fields.declared index members')) →
    fields.Settle gives read members parts → fields.Settle gives read members' parts
  | _, _, .nil, _, _, _, _, _, _ => trivial
  | _, _, .cons _ _ _ _ _, (_, _), _, _, (_, _), h, hsettle => by
    obtain ⟨hsettles, hrest⟩ := hsettle
    constructor
    · have hfirst := h 0
      rw [declared, itemsFor_zero, itemsFor_zero] at hfirst
      exact hsettles.congr hfirst
    · refine Fields.Settle.congr ?_ hrest
      intro index
      have hnext := h (index + 1)
      rwa [declared, itemsFor_succ, itemsFor_succ] at hnext

end ItemsFor

/-! ## Records in a tree -/

namespace Schema

variable {s : Schema α} {declared : List FieldInfo}

/-- Objects that give the same items for each field of a record are read as the same. -/
theorem answer?_object_congr (h : s.Declares declared) {members members' : List (String × Json)}
    (hsame : ∀ index, (itemsFor declared index members).Perm (itemsFor declared index members')) :
    (s.extract (.object members)).answer? = (s.extract (.object members')).answer? := by
  obtain ⟨τ, σ, fields, layout, rfl, rfl⟩ := h
  apply Option.ext
  intro a
  rw [answer?_object_eq_some_iff, answer?_object_eq_some_iff]
  constructor
  · rintro ⟨parts, hgathers, rfl⟩
    exact ⟨parts, Fields.Settle.congr hsame hgathers, rfl⟩
  · rintro ⟨parts, hgathers, rfl⟩
    exact ⟨parts, Fields.Settle.congr (fun index => (hsame index).symm) hgathers, rfl⟩

end Schema

namespace Fields

open Extractor

/-- Members that do not stand for the first field are taken as they would be without it. -/
theorem overMembers_cons_of_others {γ : Type} {name : String} {aliases : List String}
    {schema : Schema γ} {presence : Presence γ} {rest : Fields τ σ} {members : List (String × Json)}
    (h : ∀ member ∈ members, ¬ (member.1 = name ∨ member.1 ∈ aliases)) (known : Option γ) (read : σ) :
    Reader.overMembers (Fields.cons name aliases schema presence rest).extractMember members
        (known, read) =
      (do return (known, ← Reader.overMembers rest.extractMember members read)) := by
  induction members generalizing read with
  | nil => simp [Reader.overMembers]
  | cons member members ih =>
    rw [List.forall_mem_cons] at h
    simp only [Reader.overMembers, List.foldlM_cons, extractMember, h.1, if_false] at ih ⊢
    simp only [bind_assoc, pure_bind, ih h.2]

/-- The elements of a full array are taken as members under the names of the fields would be. -/
theorem extractElements_eq : {τ σ : Type} → (fields : Fields τ σ) → Apart fields.declared →
    (items : List Json) → items.length = fields.declared.length →
    fields.extractElements items = (do
      let read ← Reader.overMembers fields.extractMember
        ((fields.declared.map FieldInfo.name).zip items) fields.unread
      Extractor.ofExcept (fields.complete read))
  | _, _, .nil, _, [], _ => rfl
  | _, _, .cons name aliases schema presence rest, hapart, json :: items, hitems => by
    obtain ⟨hnames, hapart⟩ := List.pairwise_cons.1 hapart
    have hothers : ∀ member ∈ (rest.declared.map FieldInfo.name).zip items,
        ¬ (member.1 = name ∨ member.1 ∈ aliases) := by
      intro member hmember
      obtain ⟨field, hfield, hname⟩ := List.mem_map.1 (List.of_mem_zip hmember).1
      rw [← hname]
      exact hnames field hfield
    have hfirst : (Fields.cons name aliases schema presence rest).extractMember name json
        (none, rest.unread) = (do return (some (← schema.extract json), rest.unread)) := by
      simp [extractMember]
    have hmembers : Reader.overMembers (Fields.cons name aliases schema presence rest).extractMember
        ((name, json) :: (rest.declared.map FieldInfo.name).zip items) (none, rest.unread) = (do
          let a ← schema.extract json
          let others ← Reader.overMembers rest.extractMember
            ((rest.declared.map FieldInfo.name).zip items) rest.unread
          return (some a, others)) := by
      have hstep := congrArg (· >>= Reader.overMembers
        (Fields.cons name aliases schema presence rest).extractMember
        ((rest.declared.map FieldInfo.name).zip items)) hfirst
      simp only [bind_assoc, pure_bind, overMembers_cons_of_others hothers] at hstep
      exact hstep
    have hcomplete (a : _) (read : _) :
        (Fields.cons name aliases schema presence rest).complete (some a, read) =
          (rest.complete read).map fun others => (a, others) := rfl
    rw [extractElements, rest.extractElements_eq hapart items (Nat.succ.inj hitems), declared,
      List.map_cons, List.zip_cons_cons, unread, hmembers]
    simp only [bind_assoc, pure_bind, hcomplete, ofExcept_map]

end Fields

/-- A full array is read just as the object that gives the same values under the names of the
fields. -/
theorem Schema.extract_array_eq_object {s : Schema α} {declared : List FieldInfo}
    (h : s.Declares declared) (hapart : Apart declared) {items : List Json}
    (hitems : items.length = declared.length) :
    s.extract (.array items) = s.extract (.object ((declared.map FieldInfo.name).zip items)) := by
  obtain ⟨τ, σ, fields, layout, rfl, rfl⟩ := h
  have harray : (Schema.record fields layout).extract (.array items) =
      (do return layout.build (← fields.extractElements items)) := rfl
  rw [harray, fields.extractElements_eq hapart items hitems, bind_assoc]
  rfl

end CredentialCeremony
