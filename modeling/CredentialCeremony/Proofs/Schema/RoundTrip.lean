import CredentialCeremony.Proofs.Binary.Base64
import CredentialCeremony.Proofs.Json.Printing
import CredentialCeremony.Proofs.Schema.Tolerance
import CredentialCeremony.Schema.Printer

set_option autoImplicit false

/-!
# Documents that are written and read back

`Schema.Reads s json a` says that `a` is read out of the tree `json` without a warning, and that the
tree is tame. `Fields.Hold` says the same of the members of an object and the fields of a record, in
whatever order the members stand. Both laws are stated on the tree alone, so one schema may read what
another one wrote.

A schema is faithful if its fields can be told apart by their names and no value but nothing is
written as null.

Main statement: a text that a faithful schema writes for a value is read back as the value, directly
and through a tree (`Schema.readText_text`, `Schema.readValue_text`).
-/

namespace CredentialCeremony

variable {α β : Type}

/-! ## Trees that are read without a warning -/

namespace Extractor

theorem bytes_encode (b : Bytes) : bytes (.string (Base64.encode b)) = pure b := by
  rw [bytes, Bytes.ofText?_encode]

theorem word_toNat (n : UInt32) : word (.number (.integer n.toNat)) = pure n := by
  have hlt := n.toNat_lt
  have hrange : (0 : Int) ≤ n.toNat ∧ (n.toNat : Int) < 0x100000000 := by omega
  rw [word, if_pos hrange, Int.toNat_natCast, UInt32.ofNat_toNat]

theorem integer_toInt (n : Int64) : integer (.number (.integer n.toInt)) = pure n := by
  have hrange : -0x8000000000000000 ≤ n.toInt ∧ n.toInt < 0x8000000000000000 :=
    ⟨n.le_toInt, n.toInt_lt⟩
  rw [integer, if_pos hrange, Int64.ofInt_toInt]

theorem timeout_toNat (n : UInt32) : timeout (.number (.integer n.toNat)) = pure (some n) := by
  rw [timeout, Timeout.ofJson, Timeout.ofNumber?_integer]

theorem choice_nameOf (c : Choice α) (a : α) : choice c (.string (c.nameOf a)) = pure a := by
  rw [choice, Choice.ofName_nameOf]
  rfl

theorem attempt_pure (a : α) : attempt (pure a) = pure (some a) := rfl

theorem all_map {x : Json → Extractor α} {f : β → Json} {g : β → α} {bs : List β}
    (h : ∀ b ∈ bs, x (f b) = pure (g b)) : all x (bs.map f) = pure (bs.map g) := by
  induction bs with
  | nil => rfl
  | cons b bs ih =>
    rw [List.forall_mem_cons] at h
    rw [List.map_cons, all, h.1, pure_bind, ih h.2, pure_bind, List.map_cons]

theorem readable_map {x : Json → Extractor α} {f : β → Json} {g : β → α} {bs : List β}
    (h : ∀ b ∈ bs, x (f b) = pure (g b)) : readable x (bs.map f) = pure (bs.map g) := by
  induction bs with
  | nil => rfl
  | cons b bs ih =>
    rw [List.forall_mem_cons] at h
    rw [List.map_cons, readable, h.1, attempt_pure, pure_bind, ih h.2, pure_bind, List.map_cons]
    rfl

theorem strings_map (entries : List (String × String)) (d : Dictionary String) :
    strings (entries.map fun entry => (entry.1, .string entry.2)) d =
      pure (entries.foldl (fun d entry => d.insert entry.1 entry.2) d) := by
  induction entries generalizing d with
  | nil => rfl
  | cons entry entries ih =>
    rw [List.map_cons, strings, string, pure_bind, List.foldl_cons]
    exact ih _

end Extractor

/-- The value is read out of the tree without a warning, and the tree is tame. -/
def Schema.Reads (s : Schema α) (json : Json) (a : α) : Prop :=
  s.extract json = pure a ∧ s.tame json = true

namespace Schema

theorem Reads.nullable {s : Schema α} {json : Json} {a : α} (h : s.Reads json a)
    (hnull : json ≠ .null) : (Schema.nullable s).Reads json (some a) := by
  constructor
  · rw [extract_nullable, Reader.nullOr_of_ne_null hnull, h.1, pure_bind]
  · rw [tame, h.2, Bool.or_true]

theorem Reads.listOrNull {s : Schema (List α)} {json : Json} {as : List α} (h : s.Reads json as)
    (hnull : json ≠ .null) : (Schema.listOrNull s).Reads json as := by
  constructor
  · simp only [extract_listOrNull, Reader.nullOr_of_ne_null hnull, h.1, pure_bind, Option.getD_some]
  · rw [tame, h.2, Bool.or_true]

theorem reads_list {s : Schema α} {f : β → Json} {g : β → α} {bs : List β}
    (h : ∀ b ∈ bs, s.Reads (f b) (g b)) : (Schema.list s).Reads (.array (bs.map f)) (bs.map g) := by
  constructor
  · exact Extractor.all_map fun b hb => (h b hb).1
  · rw [tame, List.all_map, List.all_eq_true]
    intro b hb
    exact (h b hb).2

theorem reads_tolerant {s : Schema α} {f : β → Json} {g : β → α} {bs : List β}
    (h : ∀ b ∈ bs, s.Reads (f b) (g b)) :
    (Schema.tolerant s).Reads (.array (bs.map f)) (bs.map g) := by
  constructor
  · exact Extractor.readable_map fun b hb => (h b hb).1
  · rfl

theorem reads_dictionary (d : Dictionary String) :
    Schema.dictionary.Reads (.object (d.entries.map fun entry => (entry.1, .string entry.2))) d := by
  constructor
  · apply (Extractor.strings_map d.entries .empty).trans
    exact congrArg pure d.ofList_entries
  · rfl

end Schema

/-! ## Members in any order -/

/-- The members hold the fields of a record, each at most once: what is given is read, what is not
given may be absent, and members of other names are passed over. -/
def Fields.Hold : {τ σ : Type} → Fields τ σ → List (String × Json) → τ → Prop
  | _, _, .nil, _, _ => True
  | _, _, .cons name aliases schema presence rest, members, (a, others) =>
    ((∀ m ∈ members, ¬ (m.1 = name ∨ m.1 ∈ aliases)) ∧ presence.absent? = some a ∧
        rest.Hold members others) ∨
      ∃ before given json behind, members = before ++ (given, json) :: behind ∧
        (given = name ∨ given ∈ aliases) ∧
        (∀ m ∈ before ++ behind, ¬ (m.1 = name ∨ m.1 ∈ aliases)) ∧
        schema.Reads json a ∧ rest.Hold (before ++ behind) others

namespace Fields

open Reader

/-- A record without fields passes over every member. -/
theorem overMembers_nil (members : List (String × Json)) (w : List TimeoutWarning) :
    overMembers Fields.nil.extractMember members () w = .ok () w := by
  induction members with
  | nil => rfl
  | cons m members ih => exact overMembers_cons_eq_ok_iff.2 ⟨(), w, rfl, ih⟩

section Cons

variable {τ σ : Type} {name : String} {aliases : List String} {schema : Schema α}
  {presence : Presence α} {rest : Fields τ σ}

/-- Members that are not for the first field are taken by the others. -/
theorem overMembers_of_others {members : List (String × Json)} {known : Option α} {read read' : σ}
    {w w' : List TimeoutWarning} (hothers : ∀ m ∈ members, ¬ (m.1 = name ∨ m.1 ∈ aliases))
    (h : overMembers rest.extractMember members read w = .ok read' w') :
    overMembers (Fields.cons name aliases schema presence rest).extractMember members (known, read)
      w = .ok (known, read') w' := by
  induction members generalizing read w with
  | nil =>
    obtain ⟨rfl, rfl⟩ := pure_eq_ok_iff.1 h
    rfl
  | cons m members ih =>
    rw [List.forall_mem_cons] at hothers
    obtain ⟨read₁, w₁, hm, h⟩ := overMembers_cons_eq_ok_iff.1 h
    refine overMembers_cons_eq_ok_iff.2 ⟨(known, read₁), w₁, ?_, ih hothers.2 h⟩
    simp only [extractMember, if_neg hothers.1]
    rw [bind_of_ok hm]
    rfl

/-- A member for the first field is taken by it, wherever the member stands. -/
theorem overMembers_of_given {before behind : List (String × Json)} {given : String} {json : Json}
    {a : α} {read read' : σ} {w w' : List TimeoutWarning}
    (hgiven : given = name ∨ given ∈ aliases)
    (hothers : ∀ m ∈ before ++ behind, ¬ (m.1 = name ∨ m.1 ∈ aliases))
    (ha : schema.extract json = pure a)
    (h : overMembers rest.extractMember (before ++ behind) read w = .ok read' w') :
    overMembers (Fields.cons name aliases schema presence rest).extractMember
      (before ++ (given, json) :: behind) (none, read) w = .ok (some a, read') w' := by
  induction before generalizing read w with
  | nil =>
    refine overMembers_cons_eq_ok_iff.2 ⟨(some a, read), w, ?_, overMembers_of_others hothers h⟩
    simp only [extractMember, if_pos hgiven, ha]
    rfl
  | cons m before ih =>
    rw [List.cons_append, List.forall_mem_cons] at hothers
    obtain ⟨read₁, w₁, hm, h⟩ := overMembers_cons_eq_ok_iff.1 h
    refine overMembers_cons_eq_ok_iff.2 ⟨(none, read₁), w₁, ?_, ih hothers.2 h⟩
    simp only [extractMember, if_neg hothers.1]
    rw [bind_of_ok hm]
    rfl

end Cons

/-- A record is read off the members that hold it. -/
theorem Hold.overMembers : {τ σ : Type} → {fields : Fields τ σ} → {members : List (String × Json)} →
    {parts : τ} → fields.Hold members parts → (w : List TimeoutWarning) →
    ∃ read, overMembers fields.extractMember members fields.unread w = .ok read w ∧
      fields.complete read = .ok parts
  | _, _, .nil, members, (), _, w => by
    exact ⟨(), overMembers_nil members w, rfl⟩
  | _, _, .cons _ _ _ presence _, _, (a, others), h, w => by
    rcases h with ⟨hothers, habsent, hrest⟩ |
      ⟨before, given, json, behind, rfl, hgiven, hothers, hreads, hrest⟩
    · obtain ⟨read, hread, hcomplete⟩ := hrest.overMembers w
      refine ⟨(none, read), overMembers_of_others hothers hread, ?_⟩
      have hvalue : (none <|> presence.absent?) = some a := habsent
      simp only [complete, hvalue, hcomplete]
      rfl
    · obtain ⟨read, hread, hcomplete⟩ := hrest.overMembers w
      refine ⟨(some a, read), overMembers_of_given hgiven hothers hreads.1 hread, ?_⟩
      have hvalue : (some a <|> presence.absent?) = some a := rfl
      simp only [complete, hvalue, hcomplete]
      rfl

/-- Members that hold a record are tame. -/
theorem Hold.tameMember : {τ σ : Type} → {fields : Fields τ σ} → {members : List (String × Json)} →
    {parts : τ} → fields.Hold members parts → ∀ m ∈ members, fields.tameMember m.1 m.2 = true
  | _, _, .nil, _, _, _, _, _ => rfl
  | _, _, .cons _ _ _ _ _, _, (_, _), h, m, hm => by
    rw [Fields.tameMember]
    rcases h with ⟨hothers, -, hrest⟩ |
      ⟨before, given, json, behind, rfl, hgiven, hothers, hreads, hrest⟩
    · rw [if_neg (hothers m hm)]
      exact hrest.tameMember m hm
    · rcases List.mem_append.1 hm with hbefore | hm
      · have hmem : m ∈ before ++ behind := List.mem_append_left _ hbefore
        rw [if_neg (hothers m hmem)]
        exact hrest.tameMember m hmem
      · rcases List.mem_cons.1 hm with rfl | hbehind
        · rw [if_pos hgiven]
          exact hreads.2
        · have hmem : m ∈ before ++ behind := List.mem_append_right _ hbehind
          rw [if_neg (hothers m hmem)]
          exact hrest.tameMember m hmem

end Fields

/-- An object whose members hold the parts of a record is read as the record. -/
theorem Schema.reads_record {τ σ : Type} {fields : Fields τ σ} {layout : Layout τ α}
    {members : List (String × Json)} {a : α} (h : fields.Hold members (layout.parts a)) :
    (Schema.record fields layout).Reads (.object members) a := by
  constructor
  · funext w
    obtain ⟨read, hread, hcomplete⟩ := h.overMembers w
    apply (bind_of_ok hread).trans
    rw [hcomplete]
    exact congrArg (fun a => EStateM.Result.ok a w) (layout.build_parts a)
  · rw [tame, List.all_eq_true]
    exact h.tameMember

/-- The members of a record are written under the names of its fields, in order. -/
theorem Fields.members_names_sublist : {τ σ : Type} → (fields : Fields τ σ) → (parts : τ) →
    ((fields.members parts).map Prod.fst).Sublist fields.names
  | _, _, .nil, _ => .slnil
  | _, _, .cons name _ schema presence rest, (a, others) => by
    have hrest := rest.members_names_sublist others
    rw [members]
    split
    · exact .cons _ hrest
    · exact .cons_cons _ hrest

theorem Fields.name_mem_of_mem_members {τ σ : Type} {fields : Fields τ σ} {parts : τ}
    {m : String × Json} (h : m ∈ fields.members parts) : m.1 ∈ fields.names :=
  (fields.members_names_sublist parts).subset (List.mem_map_of_mem h)

/-- A field that one schema writes is read by another under the same name, unless it is left out and
may be absent. -/
theorem Fields.hold_cons {τ₁ σ₁ τ₂ σ₂ : Type} {name : String} {aliases₁ aliases₂ : List String}
    {written : Schema β} {presence₁ : Presence β} {rest₁ : Fields τ₁ σ₁} {read : Schema α}
    {presence₂ : Presence α} {rest₂ : Fields τ₂ σ₂} {b : β} {a : α} {others₁ : τ₁} {others₂ : τ₂}
    (homitted : presence₁.omits b = true → presence₂.absent? = some a)
    (hgiven : presence₁.omits b = false → read.Reads (written.toJson b) a)
    (hnames : ∀ other ∈ rest₁.names, ¬ (other = name ∨ other ∈ aliases₂))
    (hrest : rest₂.Hold (rest₁.members others₁) others₂) :
    (Fields.cons name aliases₂ read presence₂ rest₂).Hold
      ((Fields.cons name aliases₁ written presence₁ rest₁).members (b, others₁)) (a, others₂) := by
  have hothers : ∀ m ∈ rest₁.members others₁, ¬ (m.1 = name ∨ m.1 ∈ aliases₂) := by
    intro m hm
    exact hnames _ (name_mem_of_mem_members hm)
  rw [Fields.members]
  -- a field that is left out is read as absent
  cases homits : presence₁.omits b with
  | true => exact .inl ⟨hothers, homitted homits, hrest⟩
  | false =>
    exact .inr ⟨[], name, written.toJson b, rest₁.members others₁, rfl, .inl rfl, hothers,
      hgiven homits, hrest⟩

/-- A required field is always written, so it may be required of what is read as well. -/
theorem Fields.hold_required {τ₁ σ₁ τ₂ σ₂ : Type} {name : String} {aliases₁ aliases₂ : List String}
    {written : Schema β} {rest₁ : Fields τ₁ σ₁} {read : Schema α} {presence₂ : Presence α}
    {rest₂ : Fields τ₂ σ₂} {b : β} {a : α} {others₁ : τ₁} {others₂ : τ₂}
    (hread : read.Reads (written.toJson b) a)
    (hnames : ∀ other ∈ rest₁.names, ¬ (other = name ∨ other ∈ aliases₂))
    (hrest : rest₂.Hold (rest₁.members others₁) others₂) :
    (Fields.cons name aliases₂ read presence₂ rest₂).Hold
      ((Fields.cons name aliases₁ written .required rest₁).members (b, others₁)) (a, others₂) := by
  refine Fields.hold_cons ?_ (fun _ => hread) hnames hrest
  -- nothing that is required is left out
  intro homitted
  cases homitted

/-! ## Faithful schemas -/

/-- Whether null is never written. -/
def Schema.neverNull : {α : Type} → Schema α → Bool
  | _, .timeout | _, .lenientOption _ | _, .nullable _ => false
  | _, .listOrNull s => s.neverNull
  | _, _ => true

mutual

/-- Whether values can be told apart by what is written for them: fields have different names, and
nothing but an absent value is written as null. -/
def Schema.faithful : {α : Type} → Schema α → Bool
  | _, .nullable s => s.neverNull && s.faithful
  | _, .list s => s.faithful
  | _, .tolerant s => s.faithful
  | _, .listOrNull s => s.neverNull && s.faithful
  | _, .record fields _ => fields.faithful
  | _, .extensible _ known => known.neverNull && known.faithful
  | _, _ => true

/-- Whether this holds of the fields, none of which is read under the name of a later one. -/
def Fields.faithful : {τ σ : Type} → Fields τ σ → Bool
  | _, _, .nil => true
  | _, _, .cons name aliases schema _ rest =>
    decide (∀ other ∈ rest.names, ¬ (other = name ∨ other ∈ aliases)) &&
      schema.faithful && rest.faithful

end

mutual

/-- What a value has to fulfil so that it is read back: it is spelled by its own rules, and the
further members of an extensible record have other names than the known one, no repeated names
inside, and whole numbers. -/
def Schema.Fits : {α : Type} → Schema α → α → Prop
  | _, .spelled s, a => s.parse (s.spell a) = .ok a
  | _, .nullable s, o => ∀ a, o = some a → s.Fits a
  | _, .list s, items => ∀ a ∈ items, s.Fits a
  | _, .tolerant s, items => ∀ a ∈ items, s.Fits a
  | _, .listOrNull s, items => s.Fits items
  | _, .record fields layout, a => fields.Fits (layout.parts a)
  | _, .extensible name known, e =>
    (∀ a, e.known = some a → known.Fits a) ∧ name ∉ e.others.keys ∧
      Json.MembersWhole e.others.entries ∧ Json.MembersDistinct e.others.entries
  | _, _, _ => True

/-- This holds of the value of every field. -/
def Fields.Fits : {τ σ : Type} → Fields τ σ → τ → Prop
  | _, _, .nil, _ => True
  | _, _, .cons _ _ schema _ rest, (a, others) => schema.Fits a ∧ rest.Fits others

end

theorem Schema.toJson_ne_null : {α : Type} → {s : Schema α} → s.neverNull = true → (a : α) →
    s.toJson a ≠ .null
  | _, .listOrNull s, h, items => by
    rw [toJson]
    exact toJson_ne_null (s := s) h items
  | _, .extensible _ _, _, e => by
    rw [toJson]
    split
    · exact Json.noConfusion
    · exact Json.noConfusion
  | _, .string, _, _ | _, .bytes, _, _ | _, .flag, _, _ | _, .word, _, _ | _, .integer, _, _
  | _, .spelled _, _, _ | _, .choice _, _, _ | _, .lenient _ _, _, _ | _, .list _, _, _
  | _, .tolerant _, _, _ | _, .dictionary, _, _ | _, .record _ _, _, _ => by
    rw [toJson]
    exact Json.noConfusion

theorem Fields.names_nodup_of_faithful : {τ σ : Type} → {fields : Fields τ σ} →
    fields.faithful = true → fields.names.Nodup
  | _, _, .nil, _ => .nil
  | _, _, .cons _ _ _ _ _, h => by
    simp only [faithful, Bool.and_eq_true, decide_eq_true_eq] at h
    refine List.nodup_cons.2 ⟨?_, names_nodup_of_faithful h.2⟩
    intro hmem
    exact h.1.1 _ hmem (.inl rfl)

/-! ## What is written is read -/

section Extensible

open Reader

variable {κ : Type} {name : String} {known : Schema κ}

/-- Members of other names than the known one are kept, the last one first. -/
theorem overMembers_extensibleMember {members : List (String × Json)} {taken : List (String × Json)}
    {value : Option (Option κ)} {w : List TimeoutWarning} (h : ∀ m ∈ members, m.1 ≠ name) :
    overMembers (extensibleMember name known) members (value, taken) w =
      .ok (value, members.reverse ++ taken) w := by
  induction members generalizing taken with
  | nil => rfl
  | cons m members ih =>
    rw [List.forall_mem_cons] at h
    have hm : extensibleMember name known m.1 m.2 (value, taken) w = .ok (value, m :: taken) w :=
      extensibleMember_eq_ok_iff.2 (.inr ⟨h.1, rfl, rfl⟩)
    refine overMembers_cons_eq_ok_iff.2 ⟨_, _, hm, ?_⟩
    rw [ih h.2, List.reverse_cons, List.append_assoc, List.singleton_append]

/-- An extensible record is made of what its members hold. -/
theorem Schema.extract_extensible {members : List (String × Json)} {value : Option (Option κ)}
    {others : Dictionary Json} {w : List TimeoutWarning}
    (hmembers : overMembers (extensibleMember name known) members (none, []) w =
      .ok (value, others.entries.reverse) w)
    (hdistinct : Json.MembersDistinct others.entries) :
    (Schema.extensible name known).extract (.object members) w =
      .ok ⟨value.getD none, others⟩ w := by
  apply (bind_of_ok hmembers).trans
  simp only [List.reverse_reverse, Json.resolveMembers_of_distinct hdistinct,
    Dictionary.ofList_entries]
  rfl

/-- An extensible record is read back if its known member is. -/
theorem Schema.reads_extensible {e : Extensible κ} (hnull : known.neverNull = true)
    (hknown : ∀ a, e.known = some a → known.Reads (known.toJson a) a)
    (hnames : name ∉ e.others.keys) (hdistinct : Json.MembersDistinct e.others.entries) :
    (Schema.extensible name known).Reads ((Schema.extensible name known).toJson e) e := by
  obtain ⟨value, others⟩ := e
  have hothers : ∀ m ∈ others.entries, m.1 ≠ name := by
    rintro m hm rfl
    exact hnames (List.mem_map_of_mem hm)
  have htame : ∀ m ∈ others.entries,
      (if m.1 = name then m.2.isNull || known.tame m.2 else true) = true := by
    intro m hm
    rw [if_neg (hothers m hm)]
  cases value with
  | none =>
    constructor
    · funext w
      have hmembers : overMembers (extensibleMember name known) others.entries (none, []) w =
          .ok (none, others.entries.reverse) w := by
        rw [overMembers_extensibleMember hothers, List.append_nil]
      exact extract_extensible hmembers hdistinct
    · exact List.all_eq_true.2 htame
  -- the known member comes first, and the others are kept behind it
  | some a =>
    obtain ⟨hextract, hknowntame⟩ := hknown a rfl
    constructor
    · funext w
      have hgiven : extensibleMember name known name (known.toJson a) (none, []) w =
          .ok (some (some a), []) w := by
        refine extensibleMember_eq_ok_iff.2 (.inl ⟨rfl, rfl, some a, ?_, rfl⟩)
        rw [nullOr_of_ne_null (toJson_ne_null hnull a), hextract]
        rfl
      have hmembers : overMembers (extensibleMember name known)
          ((name, known.toJson a) :: others.entries) (none, []) w =
            .ok (some (some a), others.entries.reverse) w := by
        refine overMembers_cons_eq_ok_iff.2 ⟨_, _, hgiven, ?_⟩
        rw [overMembers_extensibleMember hothers, List.append_nil]
      exact extract_extensible hmembers hdistinct
    · refine List.all_eq_true.2 (List.forall_mem_cons.2 ⟨?_, htame⟩)
      rw [if_pos rfl, hknowntame, Bool.or_true]

end Extensible

mutual

/-- What a faithful schema writes for a value is read back as the value. -/
theorem Schema.reads_toJson : {α : Type} → (s : Schema α) → s.faithful = true → (a : α) →
    s.Fits a → s.Reads (s.toJson a) a
  | _, .string, _, _, _ => ⟨rfl, rfl⟩
  | _, .bytes, _, b, _ => ⟨Extractor.bytes_encode b, rfl⟩
  | _, .flag, _, _, _ => ⟨rfl, rfl⟩
  | _, .word, _, n, _ => ⟨Extractor.word_toNat n, rfl⟩
  | _, .integer, _, n, _ => ⟨Extractor.integer_toInt n, rfl⟩
  | _, .timeout, _, none, _ => ⟨rfl, rfl⟩
  | _, .timeout, _, some n, _ => ⟨Extractor.timeout_toNat n, rfl⟩
  | _, .spelled s, _, a, h => by
    refine ⟨?_, rfl⟩
    unfold Schema.extract Schema.toJson
    rw [Extractor.string, pure_bind, h]
    rfl
  | _, .choice c, _, a, _ => ⟨Extractor.choice_nameOf c a, rfl⟩
  | _, .lenient c default, _, a, _ => by
    refine ⟨?_, rfl⟩
    unfold Schema.extract Schema.toJson
    rw [Extractor.choice_nameOf, Extractor.attempt_pure, pure_bind]
    rfl
  | _, .lenientOption c, _, none, _ => ⟨rfl, rfl⟩
  | _, .lenientOption c, _, some a, _ => by
    refine ⟨?_, rfl⟩
    unfold Schema.extract Schema.toJson
    exact (congrArg Extractor.attempt (Extractor.choice_nameOf c a)).trans rfl
  | _, .nullable s, _, none, _ => ⟨rfl, rfl⟩
  | _, .nullable s, h, some a, hfits => by
    rw [Schema.faithful, Bool.and_eq_true] at h
    exact (Schema.reads_toJson s h.2 a (hfits a rfl)).nullable (Schema.toJson_ne_null h.1 a)
  | _, .list s, h, items, hfits => by
    have hreads := Schema.reads_list fun a ha => Schema.reads_toJson s h a (hfits a ha)
    rwa [List.map_id'] at hreads
  | _, .tolerant s, h, items, hfits => by
    have hreads := Schema.reads_tolerant fun a ha => Schema.reads_toJson s h a (hfits a ha)
    rwa [List.map_id'] at hreads
  | _, .listOrNull s, h, items, hfits => by
    rw [Schema.faithful, Bool.and_eq_true] at h
    exact (Schema.reads_toJson s h.2 items hfits).listOrNull (Schema.toJson_ne_null h.1 items)
  | _, .dictionary, _, d, _ => Schema.reads_dictionary d
  | _, .record fields layout, h, a, hfits =>
    Schema.reads_record (Fields.hold_members fields h (layout.parts a) hfits)
  | _, .extensible name known, h, e, hfits => by
    rw [Schema.faithful, Bool.and_eq_true] at h
    obtain ⟨hknown, hnames, -, hdistinct⟩ := hfits
    exact Schema.reads_extensible h.1 (fun a ha => Schema.reads_toJson known h.2 a (hknown a ha))
      hnames hdistinct

theorem Fields.hold_members : {τ σ : Type} → (fields : Fields τ σ) → fields.faithful = true →
    (parts : τ) → fields.Fits parts → fields.Hold (fields.members parts) parts
  | _, _, .nil, _, _, _ => trivial
  | _, _, .cons _ _ schema _ rest, h, (a, others), hfits => by
    obtain ⟨ha, hothers⟩ := hfits
    simp only [Fields.faithful, Bool.and_eq_true, decide_eq_true_eq] at h
    exact Fields.hold_cons Presence.absent?_of_omits
      (fun _ => Schema.reads_toJson schema h.1.2 a ha) h.1.1
      (Fields.hold_members rest h.2 others hothers)

end

/-! ## The text of what is written -/

namespace Json

theorem itemsWhole_map {f : β → Json} {bs : List β} (h : ∀ b ∈ bs, (f b).Whole) :
    ItemsWhole (bs.map f) := by
  induction bs with
  | nil => trivial
  | cons b bs ih =>
    rw [List.forall_mem_cons] at h
    exact ⟨h.1, ih h.2⟩

theorem itemsDistinct_map {f : β → Json} {bs : List β} (h : ∀ b ∈ bs, (f b).Distinct) :
    ItemsDistinct (bs.map f) := by
  induction bs with
  | nil => trivial
  | cons b bs ih =>
    rw [List.forall_mem_cons] at h
    exact ⟨h.1, ih h.2⟩

theorem whole_natCast {n : Nat} (h : n < 2 ^ 64) : (Json.number (.integer n)).Whole := by
  refine ⟨n, rfl, ?_, ?_⟩ <;> omega

/-- An object of strings has no numbers in it and repeats no name but those of its members. -/
theorem strings_whole (entries : List (String × String)) :
    MembersWhole (entries.map fun entry => (entry.1, .string entry.2)) ∧
      MembersDistinct (entries.map fun entry => (entry.1, .string entry.2)) := by
  induction entries with
  | nil => exact ⟨trivial, trivial⟩
  | cons entry entries ih => exact ⟨⟨trivial, ih.1⟩, ⟨trivial, ih.2⟩⟩

end Json

mutual

/-- Every number that is written is whole and fits 64 bits. -/
theorem Schema.whole_toJson : {α : Type} → (s : Schema α) → (a : α) → s.Fits a → (s.toJson a).Whole
  | _, .string, _, _ | _, .bytes, _, _ | _, .flag, _, _ | _, .spelled _, _, _
  | _, .choice _, _, _ | _, .lenient _ _, _, _ | _, .timeout, none, _
  | _, .lenientOption _, none, _ | _, .lenientOption _, some _, _ | _, .nullable _, none, _ => trivial
  | _, .word, n, _ | _, .timeout, some n, _ =>
    Json.whole_natCast (Nat.lt_trans n.toNat_lt (by decide))
  | _, .integer, n, _ => ⟨n.toInt, rfl, n.le_toInt, Int.lt_trans n.toInt_lt (by decide)⟩
  | _, .nullable s, some a, hfits => Schema.whole_toJson s a (hfits a rfl)
  | _, .list s, items, hfits | _, .tolerant s, items, hfits =>
    Json.itemsWhole_map fun a ha => Schema.whole_toJson s a (hfits a ha)
  | _, .listOrNull s, items, hfits => Schema.whole_toJson s items hfits
  | _, .dictionary, d, _ => (Json.strings_whole d.entries).1
  | _, .record fields layout, a, hfits => Fields.whole_members fields (layout.parts a) hfits
  | _, .extensible name known, ⟨none, others⟩, hfits => hfits.2.2.1
  | _, .extensible name known, ⟨some a, others⟩, hfits =>
    ⟨Schema.whole_toJson known a (hfits.1 a rfl), hfits.2.2.1⟩

theorem Fields.whole_members : {τ σ : Type} → (fields : Fields τ σ) → (parts : τ) →
    fields.Fits parts → Json.MembersWhole (fields.members parts)
  | _, _, .nil, _, _ => trivial
  | _, _, .cons _ _ schema presence rest, (a, others), hfits => by
    have hrest := Fields.whole_members rest others hfits.2
    rw [Fields.members]
    split
    · exact hrest
    · exact ⟨Schema.whole_toJson schema a hfits.1, hrest⟩

end

mutual

/-- No object that a faithful schema writes repeats a name. -/
theorem Schema.distinct_toJson : {α : Type} → (s : Schema α) → s.faithful = true → (a : α) →
    s.Fits a → (s.toJson a).Distinct
  | _, .string, _, _, _ | _, .bytes, _, _, _ | _, .flag, _, _, _ | _, .spelled _, _, _, _
  | _, .choice _, _, _, _ | _, .lenient _ _, _, _, _ | _, .timeout, _, none, _
  | _, .lenientOption _, _, none, _ | _, .lenientOption _, _, some _, _
  | _, .nullable _, _, none, _ | _, .word, _, _, _ | _, .timeout, _, some _, _
  | _, .integer, _, _, _ => trivial
  | _, .nullable s, h, some a, hfits => by
    rw [Schema.faithful, Bool.and_eq_true] at h
    exact Schema.distinct_toJson s h.2 a (hfits a rfl)
  | _, .list s, h, items, hfits =>
    Json.itemsDistinct_map fun a ha => Schema.distinct_toJson s h a (hfits a ha)
  | _, .tolerant s, h, items, hfits =>
    Json.itemsDistinct_map fun a ha => Schema.distinct_toJson s h a (hfits a ha)
  | _, .listOrNull s, h, items, hfits => by
    rw [Schema.faithful, Bool.and_eq_true] at h
    exact Schema.distinct_toJson s h.2 items hfits
  | _, .dictionary, _, d, _ => by
    refine ⟨?_, (Json.strings_whole d.entries).2⟩
    rw [List.map_map]
    exact d.nodup
  | _, .record fields layout, h, a, hfits =>
    ⟨(fields.members_names_sublist (layout.parts a)).nodup (Fields.names_nodup_of_faithful h),
      Fields.distinct_members fields h (layout.parts a) hfits⟩
  | _, .extensible name known, h, ⟨none, others⟩, hfits => ⟨others.nodup, hfits.2.2.2⟩
  | _, .extensible name known, h, ⟨some a, others⟩, hfits => by
    rw [Schema.faithful, Bool.and_eq_true] at h
    obtain ⟨hknown, hnames, -, hdistinct⟩ := hfits
    exact ⟨List.nodup_cons.2 ⟨hnames, others.nodup⟩,
      Schema.distinct_toJson known h.2 a (hknown a rfl), hdistinct⟩

theorem Fields.distinct_members : {τ σ : Type} → (fields : Fields τ σ) → fields.faithful = true →
    (parts : τ) → fields.Fits parts → Json.MembersDistinct (fields.members parts)
  | _, _, .nil, _, _, _ => trivial
  | _, _, .cons _ _ schema presence rest, h, (a, others), hfits => by
    simp only [Fields.faithful, Bool.and_eq_true] at h
    have hrest := Fields.distinct_members rest h.2 others hfits.2
    rw [Fields.members]
    split
    · exact hrest
    · exact ⟨Schema.distinct_toJson schema h.1.2 a hfits.1, hrest⟩

end

/-! ## Closed schemas -/

mutual

/-- Whether a schema fixes the shape of its values: it keeps no further members and has no rules of
its own. -/
def Schema.closed : {α : Type} → Schema α → Bool
  | _, .spelled _ => false
  | _, .nullable s => s.closed
  | _, .list s => s.closed
  | _, .tolerant s => s.closed
  | _, .listOrNull s => s.closed
  | _, .record fields _ => fields.closed
  | _, .extensible _ _ => false
  | _, _ => true

/-- Whether this holds of the fields. -/
def Fields.closed : {τ σ : Type} → Fields τ σ → Bool
  | _, _, .nil => true
  | _, _, .cons _ _ schema _ rest => schema.closed && rest.closed

end

mutual

/-- Every value of a closed schema fits it. -/
theorem Schema.fits_of_closed : {α : Type} → (s : Schema α) → s.closed = true → (a : α) → s.Fits a
  | _, .string, _, _ | _, .bytes, _, _ | _, .flag, _, _ | _, .word, _, _ | _, .integer, _, _
  | _, .timeout, _, _ | _, .choice _, _, _ | _, .lenient _ _, _, _ | _, .lenientOption _, _, _
  | _, .dictionary, _, _ => trivial
  | _, .nullable s, h, _ => fun a _ => Schema.fits_of_closed s h a
  | _, .list s, h, _ => fun a _ => Schema.fits_of_closed s h a
  | _, .tolerant s, h, _ => fun a _ => Schema.fits_of_closed s h a
  | _, .listOrNull s, h, items => Schema.fits_of_closed s h items
  | _, .record fields layout, h, a => Fields.fits_of_closed fields h (layout.parts a)

theorem Fields.fits_of_closed : {τ σ : Type} → (fields : Fields τ σ) → fields.closed = true →
    (parts : τ) → fields.Fits parts
  | _, _, .nil, _, _ => trivial
  | _, _, .cons _ _ schema _ rest, h, (a, others) => by
    rw [Fields.closed, Bool.and_eq_true] at h
    exact ⟨Schema.fits_of_closed schema h.1 a, Fields.fits_of_closed rest h.2 others⟩

end

/-- A closed field adds nothing to what the other fields have to fulfil. -/
theorem Fields.Fits.closed {τ σ : Type} {name : String} {aliases : List String} {schema : Schema α}
    {presence : Presence α} {rest : Fields τ σ} (h : schema.closed = true) {a : α} {others : τ}
    (hrest : rest.Fits others) : (Fields.cons name aliases schema presence rest).Fits (a, others) :=
  ⟨schema.fits_of_closed h a, hrest⟩

/-! ## Reading back -/

/-- What one schema writes for a value, if it is not nested too deep, is the tree of its text. -/
theorem Schema.isTreeOf_text {s : Schema α} {a : α} (hfits : s.Fits a)
    (hdepth : (s.toJson a).depth ≤ Reader.maxDepth) : (s.toJson a).IsTreeOf (utf8 (s.text a)) :=
  ⟨(s.whole_toJson a hfits).fills, hdepth⟩

/-- A text is read as what is read out of its tree. -/
theorem Schema.Reads.readText {s : Schema α} {json : Json} {a : α} {text : Bytes}
    (h : s.Reads json a) (htree : json.IsTreeOf text) : s.readText text = ⟨.ok a, []⟩ := by
  have hx : s.extract json [] = .ok a [] := by
    rw [h.1]
    rfl
  exact Schema.run_read_of_tame .inPlace htree h.2 hx

/-- The same through a tree, if no name is repeated in it. -/
theorem Schema.Reads.readValue {s : Schema α} {json : Json} {a : α} {text : Bytes}
    (h : s.Reads json a) (htree : json.IsTreeOf text) (hdistinct : json.Distinct) :
    s.readValue text = ⟨.ok a, []⟩ := by
  have hx : s.extract json.resolve [] = .ok a [] := by
    rw [Json.resolve_of_distinct hdistinct, h.1]
    rfl
  simp only [Schema.readValue, Reader.run_value_eq htree, hx]

/-- A text that a faithful schema writes for a value is read directly as the value. -/
theorem Schema.readText_text {s : Schema α} (hs : s.faithful = true) {a : α} (hfits : s.Fits a)
    (hdepth : (s.toJson a).depth ≤ Reader.maxDepth) :
    s.readText (utf8 (s.text a)) = ⟨.ok a, []⟩ :=
  (s.reads_toJson hs a hfits).readText (isTreeOf_text hfits hdepth)

/-- It is read through a tree as the value, too. -/
theorem Schema.readValue_text {s : Schema α} (hs : s.faithful = true) {a : α} (hfits : s.Fits a)
    (hdepth : (s.toJson a).depth ≤ Reader.maxDepth) :
    s.readValue (utf8 (s.text a)) = ⟨.ok a, []⟩ :=
  (s.reads_toJson hs a hfits).readValue (isTreeOf_text hfits hdepth)
    (s.distinct_toJson hs a hfits)

end CredentialCeremony
