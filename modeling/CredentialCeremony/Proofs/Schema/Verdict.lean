import CredentialCeremony.Proofs.Schema.Declared
import Mathlib.Data.List.Induction
import Mathlib.Data.Nat.Find

set_option autoImplicit false

/-!
# Verdicts on objects

The members of a record are told apart by the field that they stand for. The first member that repeats
a field, in the order of the members, is an error; if none does, the first field that has to be there
and is not, in the order of the fields, is one. `Verdict` says this of the names of the members alone,
and every object has one verdict (`Verdict.exists_verdict`, `Verdict.unique`).

When a record is over, what it lacks is looked for in what has been read: it is refused for the first
field that is lacking (`Fields.complete_of_lacking`), or else complete (`Fields.exists_complete`).
-/

namespace CredentialCeremony

variable {τ σ : Type}

/-! ## Verdicts -/

/-- The positions of the fields that the members of these names stand for, in the order of the
members. -/
def positions (declared : List FieldInfo) (names : List String) : List Nat :=
  names.filterMap (standsFor? declared)

/-- The field at this position has to be there, and no member of these names stands for it. -/
def Lacks (declared : List FieldInfo) (names : List String) (index : Nat) (field : FieldInfo) :
    Prop :=
  declared[index]? = some field ∧ field.required = true ∧ index ∉ positions declared names

/-- What becomes of an object whose members have these names: the error that is reported, if there
is one. -/
inductive Verdict (declared : List FieldInfo) : (names : List String) → Option ReadError → Prop where
  /-- A member stands for a field that has occurred, and none does in front of it. -/
  | duplicate {front back : List String} {given : String} {index : Nat} {field : FieldInfo} :
      (positions declared front).Nodup → standsFor? declared given = some index →
      index ∈ positions declared front → declared[index]? = some field →
      Verdict declared (front ++ given :: back) (some (.duplicateField field.name))
  /-- No field occurs twice, and this one is the first that is missing. -/
  | missing {names : List String} {index : Nat} {field : FieldInfo} :
      (positions declared names).Nodup → Lacks declared names index field →
      (∀ earlier < index, ∀ other, ¬ Lacks declared names earlier other) →
      Verdict declared names (some (.missingField field.name))
  /-- No field occurs twice, and none is missing. -/
  | complete {names : List String} : (positions declared names).Nodup →
      (∀ index field, ¬ Lacks declared names index field) → Verdict declared names none

section Positions

variable {declared : List FieldInfo} {given : String} {names : List String} {index : Nat}

theorem mem_positions_cons_iff : index ∈ positions declared (given :: names) ↔
    standsFor? declared given = some index ∨ index ∈ positions declared names := by
  simp [positions, List.mem_filterMap]

theorem nodup_positions_cons_iff : (positions declared (given :: names)).Nodup ↔
    (∀ index, standsFor? declared given = some index → index ∉ positions declared names) ∧
      (positions declared names).Nodup := by
  rw [positions, List.filterMap_cons]
  cases standsFor? declared given <;> simp [positions]

theorem positions_append (front back : List String) :
    positions declared (front ++ back) = positions declared front ++ positions declared back :=
  List.filterMap_append

/-- A field that has occurred and is given again occurs twice. -/
theorem not_nodup_of_repeat {front back : List String} (hstands : standsFor? declared given = some index)
    (hmem : index ∈ positions declared front) :
    ¬ (positions declared (front ++ given :: back)).Nodup := by
  intro hnodup
  rw [positions_append, List.nodup_append] at hnodup
  have hagain : index ∈ positions declared (given :: back) := mem_positions_cons_iff.2 (.inl hstands)
  exact hnodup.2.2 index hmem index hagain rfl

/-- A member that stands for a field stands for one that is declared. -/
theorem exists_field_of_standsFor? (h : standsFor? declared given = some index) :
    ∃ field, declared[index]? = some field := by
  obtain ⟨hlt, -⟩ := List.findIdx?_eq_some_iff_getElem.1 h
  exact ⟨declared[index], List.getElem?_eq_getElem hlt⟩

/-- Where a field occurs twice, there is a first member that repeats one. -/
theorem exists_first_repeat (h : ¬ (positions declared names).Nodup) :
    ∃ front given back index, names = front ++ given :: back ∧ (positions declared front).Nodup ∧
      standsFor? declared given = some index ∧ index ∈ positions declared front := by
  induction names using List.reverseRecOn with
  | nil => exact absurd List.nodup_nil h
  | append_singleton names last ih =>
    by_cases hnames : (positions declared names).Nodup
    -- without the last member nothing is repeated, so it is the last one that repeats
    · have hsplit : positions declared (names ++ [last]) =
          positions declared names ++ (standsFor? declared last).toList := by
        rw [positions_append, positions, positions, List.filterMap_cons]
        cases standsFor? declared last <;> rfl
      cases hlast : standsFor? declared last with
      | none =>
        rw [hsplit, hlast, Option.toList_none, List.append_nil] at h
        exact absurd hnames h
      | some index =>
        refine ⟨names, last, [], index, rfl, hnames, hlast, ?_⟩
        apply Decidable.byContradiction
        intro hnew
        apply h
        rw [hsplit, hlast, Option.toList_some, List.nodup_append]
        refine ⟨hnames, by simp, ?_⟩
        rintro earlier hearlier _ hindex rfl
        rw [List.mem_singleton] at hindex
        exact hnew (hindex ▸ hearlier)
    · obtain ⟨front, given, back, index, rfl, hrest⟩ := ih hnames
      exact ⟨front, given, back ++ [last], index, by simp, hrest⟩

/-- Every object has a verdict. -/
theorem Verdict.exists_verdict (declared : List FieldInfo) (names : List String) :
    ∃ r, Verdict declared names r := by
  by_cases hnodup : (positions declared names).Nodup
  · by_cases hlacks : ∃ index field, Lacks declared names index field
    · classical
      obtain ⟨field, hfield⟩ := Nat.find_spec hlacks
      refine ⟨_, .missing hnodup hfield ?_⟩
      intro earlier hlt other hother
      exact Nat.find_min hlacks hlt ⟨other, hother⟩
    · refine ⟨_, .complete hnodup ?_⟩
      intro index field h
      exact hlacks ⟨index, field, h⟩
  · obtain ⟨front, given, back, index, rfl, hfront, hgiven, hmem⟩ := exists_first_repeat hnodup
    obtain ⟨field, hfield⟩ := exists_field_of_standsFor? hgiven
    exact ⟨_, .duplicate hfront hgiven hmem hfield⟩

/-- Where a member repeats a field for the first time, this is the verdict. -/
theorem Verdict.eq_of_repeat {front back : List String} {field : FieldInfo} {r : Option ReadError}
    (hnodup : (positions declared front).Nodup) (hstands : standsFor? declared given = some index)
    (hmem : index ∈ positions declared front) (hfield : declared[index]? = some field)
    (h : Verdict declared (front ++ given :: back) r) : r = some (.duplicateField field.name) := by
  have hrepeat : ¬ (positions declared (front ++ given :: back)).Nodup :=
    not_nodup_of_repeat hstands hmem
  generalize hnames : front ++ given :: back = names at h hrepeat
  cases h with
  | missing hnodup' => exact absurd hnodup' hrepeat
  | complete hnodup' => exact absurd hnodup' hrepeat
  | @duplicate front' _ given' index' field' hnodup' hstands' hmem' hfield' =>
    have hsame (heq : given = given') : some (ReadError.duplicateField field'.name) =
        some (.duplicateField field.name) := by
      subst heq
      obtain rfl := Option.some.inj (hstands.symm.trans hstands')
      rw [Option.some.inj (hfield'.symm.trans hfield)]
    -- of two members that repeat a field, the later one has a repeat in front of it
    rcases List.append_eq_append_iff.1 hnames with ⟨between, rfl, hback⟩ | ⟨between, rfl, hback⟩
    · cases between with
      | nil => exact hsame (List.cons.inj hback).1
      | cons other between =>
        obtain ⟨rfl, -⟩ := List.cons.inj hback
        exact absurd hnodup' (not_nodup_of_repeat hstands hmem)
    · cases between with
      | nil => exact hsame (List.cons.inj hback).1.symm
      | cons other between =>
        obtain ⟨rfl, -⟩ := List.cons.inj hback
        exact absurd hnodup (not_nodup_of_repeat hstands' hmem')

/-- An object has one verdict. -/
theorem Verdict.unique {r₁ r₂ : Option ReadError} (h₁ : Verdict declared names r₁)
    (h₂ : Verdict declared names r₂) : r₁ = r₂ := by
  cases h₁ with
  | duplicate hnodup hstands hmem hfield => exact (h₂.eq_of_repeat hnodup hstands hmem hfield).symm
  | @missing _ index field hnodup hlacks hfirst =>
    have h₁ := Verdict.missing hnodup hlacks hfirst
    cases h₂ with
    | duplicate hnodup' hstands hmem hfield => exact h₁.eq_of_repeat hnodup' hstands hmem hfield
    | complete _ hfull => exact absurd hlacks (hfull _ _)
    | @missing _ index' field' _ hlacks' hfirst' =>
      have hindex : index = index' := by
        rcases Nat.lt_trichotomy index index' with hlt | heq | hlt
        · exact absurd hlacks (hfirst' index hlt field)
        · exact heq
        · exact absurd hlacks' (hfirst index' hlt field')
      subst hindex
      rw [Option.some.inj (hlacks.1.symm.trans hlacks'.1)]
  | complete hnodup hfull =>
    have h₁ := Verdict.complete hnodup hfull
    cases h₂ with
    | duplicate hnodup' hstands hmem hfield => exact h₁.eq_of_repeat hnodup' hstands hmem hfield
    | missing _ hlacks => exact absurd hlacks (hfull _ _)
    | complete => rfl

end Positions

/-! ## What has been read -/

namespace Fields

/-- The field at this position has been read. -/
def HasRead : {τ σ : Type} → Fields τ σ → (read : σ) → (index : Nat) → Prop
  | _, _, .nil, _, _ => False
  | _, _, .cons .., (known, _), 0 => known.isSome = true
  | _, _, .cons _ _ _ _ rest, (_, read), index + 1 => rest.HasRead read index

theorem not_hasRead_unread : {τ σ : Type} → (fields : Fields τ σ) → (index : Nat) →
    ¬ fields.HasRead fields.unread index
  | _, _, .nil, _ => not_false
  | _, _, .cons .., 0 => by simp [HasRead, unread]
  | _, _, .cons _ _ _ _ rest, index + 1 => rest.not_hasRead_unread index

/-- The field at this position has to be there and has not been read. -/
def Lacking {τ σ : Type} (fields : Fields τ σ) (read : σ) (index : Nat) (field : FieldInfo) : Prop :=
  fields.declared[index]? = some field ∧ field.required = true ∧ ¬ fields.HasRead read index

/-- A field is lacking if no member has stood for it. -/
theorem lacking_iff_lacks {τ σ : Type} {fields : Fields τ σ} {read : σ} {names : List String}
    {index : Nat} {field : FieldInfo}
    (h : ∀ index, fields.HasRead read index ↔ index ∈ positions fields.declared names) :
    fields.Lacking read index field ↔ Lacks fields.declared names index field := by
  rw [Lacking, h, Lacks]

section Lacking

variable {γ : Type} {name : String} {aliases : List String} {schema : Schema γ}
  {presence : Presence γ} {rest : Fields τ σ} {known : Option γ} {read : σ}

theorem lacking_zero_iff {field : FieldInfo} :
    (Fields.cons name aliases schema presence rest).Lacking (known, read) 0 field ↔
      field = ⟨name, aliases, presence.absent?.isNone⟩ ∧ (known <|> presence.absent?) = none := by
  have hnone : (known <|> presence.absent?) = none ↔
      presence.absent?.isNone = true ∧ ¬ known.isSome = true := by
    cases known <;> simp
  rw [Lacking, hnone, declared, List.getElem?_cons_zero, Option.some.injEq, HasRead]
  constructor
  · rintro ⟨rfl, hlacking⟩
    exact ⟨rfl, hlacking⟩
  · rintro ⟨rfl, hlacking⟩
    exact ⟨rfl, hlacking⟩

theorem lacking_succ_iff {index : Nat} {field : FieldInfo} :
    (Fields.cons name aliases schema presence rest).Lacking (known, read) (index + 1) field ↔
      rest.Lacking read index field :=
  Iff.rfl

/-- A record is refused at a field without a value, whatever comes behind it. -/
theorem complete_cons_of_none (h : (known <|> presence.absent?) = none) :
    (Fields.cons name aliases schema presence rest).complete (known, read) =
      .error (.missingField name) := by
  rw [complete, h]

theorem complete_cons_of_some {a : γ} (h : (known <|> presence.absent?) = some a) :
    (Fields.cons name aliases schema presence rest).complete (known, read) =
      (rest.complete read).map fun others => (a, others) := by
  rw [complete, h]

end Lacking

/-- A record is refused for the first of its fields that is lacking. -/
theorem complete_of_lacking : {τ σ : Type} → (fields : Fields τ σ) → {read : σ} → {index : Nat} →
    {field : FieldInfo} → fields.Lacking read index field →
    (∀ earlier < index, ∀ other, ¬ fields.Lacking read earlier other) →
    fields.complete read = .error (.missingField field.name)
  | _, _, .cons .., (_, _), 0, _, hlacking, _ => by
    obtain ⟨rfl, hnone⟩ := lacking_zero_iff.1 hlacking
    exact complete_cons_of_none hnone
  | _, _, .cons _ _ _ presence rest, (known, _), index + 1, _, hlacking, hfirst => by
    -- the field in front has a value, since it is not lacking
    have hsome : (known <|> presence.absent?) ≠ none := by
      intro hnone
      exact hfirst 0 (Nat.succ_pos index) _ (lacking_zero_iff.2 ⟨rfl, hnone⟩)
    obtain ⟨a, ha⟩ := Option.ne_none_iff_exists'.1 hsome
    have hrest := rest.complete_of_lacking (lacking_succ_iff.1 hlacking) fun earlier hlt other h =>
      hfirst (earlier + 1) (Nat.succ_lt_succ hlt) other (lacking_succ_iff.2 h)
    rw [complete_cons_of_some ha, hrest]
    rfl

/-- A record is complete if none of its fields is lacking. -/
theorem exists_complete : {τ σ : Type} → (fields : Fields τ σ) → {read : σ} →
    (∀ index field, ¬ fields.Lacking read index field) → ∃ parts, fields.complete read = .ok parts
  | _, _, .nil, _, _ => ⟨(), rfl⟩
  | _, _, .cons _ _ _ presence rest, (known, _), h => by
    have hsome : (known <|> presence.absent?) ≠ none := by
      intro hnone
      exact h 0 _ (lacking_zero_iff.2 ⟨rfl, hnone⟩)
    obtain ⟨a, ha⟩ := Option.ne_none_iff_exists'.1 hsome
    obtain ⟨parts, hparts⟩ := rest.exists_complete fun index field hlacking =>
      h (index + 1) field (lacking_succ_iff.2 hlacking)
    refine ⟨(a, parts), ?_⟩
    rw [complete_cons_of_some ha, hparts]
    rfl

end Fields

end CredentialCeremony
