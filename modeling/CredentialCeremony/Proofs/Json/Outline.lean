import CredentialCeremony.Proofs.Json.Resolution
import CredentialCeremony.Proofs.Reading.Skip

set_option autoImplicit false

/-!
# Outlines

The outline of an array or object is what it holds at its first level: its elements in order, or its
members with their names. Of a tree these are the values themselves; of a text they are the places
where the values start. A text has one outline at most (`Outline.Of.unique`), also where a value in
it cannot be held by a tree, and the outline of a text that spells a tree is that of the tree
(`Json.Spelled.outline`).
-/

namespace CredentialCeremony

/-- What an array or object holds at its first level. -/
inductive Outline (ι : Type) where
  | array (items : List ι)
  | object (members : List (String × ι))

namespace Outline

variable {ι κ : Type}

/-- What stands for a field: the last member of its name, or the element at its position. -/
def field? (name : String) (index : Nat) : Outline ι → Option ι
  | .array items => items[index]?
  | .object members => lastNamed name members

/-- The outline of other items with the same names. -/
def map (f : ι → κ) : Outline ι → Outline κ
  | .array items => .array (items.map f)
  | .object members => .object (members.map fun member => (member.1, f member.2))

theorem field?_map (f : ι → κ) (o : Outline ι) (name : String) (index : Nat) :
    (o.map f).field? name index = (o.field? name index).map f := by
  cases o with
  | array items => simp [map, field?]
  | object members => exact lastNamed_map name f members

end Outline

namespace Grammar

open Reader

/-- At the front of the text stand the elements of an array, which start at these places, and the
closing bracket behind them. -/
def ElementsAt : List Bytes → (first : Bool) → (text rest : Bytes) → Prop
  | [], _, text, rest => Next ']' text rest
  | item :: items, first, text, rest =>
    Lead first text item ∧ ∃ behind, Value item behind ∧ ElementsAt items false behind rest

/-- At the front of the text stand the members of an object, the values of which start at these
places, and the closing brace behind them. -/
def MembersAt : List (String × Bytes) → (first : Bool) → (text rest : Bytes) → Prop
  | [], _, text, rest => Next '\x7d' text rest
  | (name, item) :: members, first, text, rest =>
    ∃ start quoted colon behind, Lead first text start ∧ Next '"' start quoted ∧
      Chars quoted (utf8 name) colon ∧ Next ':' colon item ∧ Value item behind ∧
        MembersAt members false behind rest

/-- A string ends at one place. -/
theorem Escaped.unique {text r₁ r₂ : Bytes} (h₁ : Escaped text r₁) (h₂ : Escaped text r₂) :
    r₁ = r₂ := by
  have hpassed : passString text = .ok ((), r₁) := passString_eq_ok_iff.2 h₁
  cases hpassed.symm.trans (passString_eq_ok_iff.2 h₂)
  rfl

/-- A value ends at one place. -/
theorem Value.unique {text r₁ r₂ : Bytes} (h₁ : Value text r₁) (h₂ : Value text r₂) : r₁ = r₂ := by
  have hskip₁ : skip ⟨text, []⟩ = .ok () ⟨r₁, []⟩ := skip_eq_ok_iff.2 ⟨h₁, rfl⟩
  have hskip₂ : skip ⟨text, []⟩ = .ok () ⟨r₂, []⟩ := skip_eq_ok_iff.2 ⟨h₂, rfl⟩
  cases hskip₁.symm.trans hskip₂
  rfl

/-- Where an element starts, the array does not end. -/
theorem not_bracket_of_lead {first : Bool} {text item behind rest : Bytes}
    (hlead : Lead first text item) (hitem : Value item behind) : ¬ Next ']' text rest := by
  intro hbracket
  cases first with
  | true =>
    obtain rfl : item = text := hlead
    obtain ⟨ch, t, hnext, hne⟩ := exists_next_of_value hitem
    exact hne .array (hnext.unique hbracket).1
  | false => exact absurd (Next.unique hlead hbracket).1 (by decide)

/-- Where a member starts, the object does not end. -/
theorem not_brace_of_lead {first : Bool} {text start quoted rest : Bytes}
    (hlead : Lead first text start) (hmark : Next '"' start quoted) : ¬ Next '\x7d' text rest := by
  intro hbrace
  cases first with
  | true =>
    obtain rfl : start = text := hlead
    exact absurd (hmark.unique hbrace).1 (by decide)
  | false => exact absurd (Next.unique hlead hbrace).1 (by decide)

theorem ElementsAt.unique {items₁ items₂ : List Bytes} {first : Bool} {text r₁ r₂ : Bytes}
    (h₁ : ElementsAt items₁ first text r₁) (h₂ : ElementsAt items₂ first text r₂) :
    items₁ = items₂ ∧ r₁ = r₂ := by
  induction items₁ generalizing items₂ first text with
  | nil =>
    cases items₂ with
    | nil => exact ⟨rfl, (Next.unique h₁ h₂).2⟩
    | cons item items =>
      obtain ⟨hlead, behind, hitem, -⟩ := h₂
      exact absurd h₁ (not_bracket_of_lead hlead hitem)
  | cons item₁ items₁ ih =>
    obtain ⟨hlead₁, behind₁, hitem₁, h₁⟩ := h₁
    cases items₂ with
    | nil => exact absurd h₂ (not_bracket_of_lead hlead₁ hitem₁)
    | cons item₂ items₂ =>
      obtain ⟨hlead₂, behind₂, hitem₂, h₂⟩ := h₂
      obtain rfl := hlead₁.unique hlead₂
      obtain rfl := hitem₁.unique hitem₂
      obtain ⟨rfl, rfl⟩ := ih h₁ h₂
      exact ⟨rfl, rfl⟩

theorem MembersAt.unique {members₁ members₂ : List (String × Bytes)} {first : Bool}
    {text r₁ r₂ : Bytes} (h₁ : MembersAt members₁ first text r₁)
    (h₂ : MembersAt members₂ first text r₂) : members₁ = members₂ ∧ r₁ = r₂ := by
  induction members₁ generalizing members₂ first text with
  | nil =>
    cases members₂ with
    | nil => exact ⟨rfl, (Next.unique h₁ h₂).2⟩
    | cons member members =>
      obtain ⟨start, quoted, colon, behind, hlead, hmark, -⟩ := h₂
      exact absurd h₁ (not_brace_of_lead hlead hmark)
  | cons member₁ members₁ ih =>
    obtain ⟨name₁, item₁⟩ := member₁
    obtain ⟨s₁, q₁, c₁, behind₁, hlead₁, hmark₁, hname₁, hcolon₁, hitem₁, h₁⟩ := h₁
    cases members₂ with
    | nil => exact absurd h₂ (not_brace_of_lead hlead₁ hmark₁)
    | cons member₂ members₂ =>
      obtain ⟨name₂, item₂⟩ := member₂
      obtain ⟨s₂, q₂, c₂, behind₂, hlead₂, hmark₂, hname₂, hcolon₂, hitem₂, h₂⟩ := h₂
      obtain rfl := hlead₁.unique hlead₂
      obtain ⟨-, rfl⟩ := hmark₁.unique hmark₂
      obtain ⟨rfl, rfl⟩ := hname₁.unique hname₂
      obtain ⟨-, rfl⟩ := hcolon₁.unique hcolon₂
      obtain rfl := hitem₁.unique hitem₂
      obtain ⟨rfl, rfl⟩ := ih h₁ h₂
      exact ⟨rfl, rfl⟩

/-- There are fewer members than bytes that hold them. -/
theorem MembersAt.length_lt {members : List (String × Bytes)} {first : Bool}
    {text rest : Bytes} (h : MembersAt members first text rest) : members.length < text.length := by
  induction members generalizing first text with
  | nil => exact Nat.zero_lt_of_lt (Next.length_lt h)
  | cons member members ih =>
    obtain ⟨start, quoted, colonText, behind, hlead, hmark, hname, hcolon, hvalue, h⟩ := h
    have hstart := hlead.length_le
    have hquoted := hmark.length_lt
    have hbehindName := hname.escaped.length_lt
    have hitem := hcolon.length_lt
    have hbehind := hvalue.length_lt
    have hmembers := ih h
    rw [List.length_cons]
    omega

end Grammar

open Grammar

namespace Outline

/-- The array or object stands at the front of the text, and `rest` behind it. -/
def At : Outline Bytes → (text rest : Bytes) → Prop
  | .array items, text, rest => ∃ inner, Next '[' text inner ∧ ElementsAt items true inner rest
  | .object members, text, rest =>
    ∃ inner, Next '\x7b' text inner ∧ MembersAt members true inner rest

/-- The text is a document, and this is its outline. -/
def Of (o : Outline Bytes) (text : Bytes) : Prop :=
  ∃ rest, o.At text rest ∧ ∀ b ∈ rest, isSpace b = true

/-- At the front of a text stands one array or object at most. -/
theorem At.unique {o₁ o₂ : Outline Bytes} {text r₁ r₂ : Bytes} (h₁ : o₁.At text r₁)
    (h₂ : o₂.At text r₂) : o₁ = o₂ := by
  cases o₁ with
  | array items₁ =>
    obtain ⟨inner₁, hopen₁, h₁⟩ := h₁
    cases o₂ with
    | array items₂ =>
      obtain ⟨inner₂, hopen₂, h₂⟩ := h₂
      obtain ⟨-, rfl⟩ := hopen₁.unique hopen₂
      rw [(h₁.unique h₂).1]
    | object members₂ =>
      obtain ⟨inner₂, hopen₂, -⟩ := h₂
      exact absurd (hopen₁.unique hopen₂).1 (by decide)
  | object members₁ =>
    obtain ⟨inner₁, hopen₁, h₁⟩ := h₁
    cases o₂ with
    | array items₂ =>
      obtain ⟨inner₂, hopen₂, -⟩ := h₂
      exact absurd (hopen₁.unique hopen₂).1 (by decide)
    | object members₂ =>
      obtain ⟨inner₂, hopen₂, h₂⟩ := h₂
      obtain ⟨-, rfl⟩ := hopen₁.unique hopen₂
      rw [(h₁.unique h₂).1]

/-- A document has one outline. -/
theorem Of.unique {o₁ o₂ : Outline Bytes} {text : Bytes} (h₁ : o₁.Of text) (h₂ : o₂.Of text) :
    o₁ = o₂ := by
  obtain ⟨r₁, h₁, -⟩ := h₁
  obtain ⟨r₂, h₂, -⟩ := h₂
  exact h₁.unique h₂

end Outline

/-! ## Outlines of trees -/

namespace Json

/-- The outline of a tree, if it is an array or object. -/
def outline? : Json → Option (Outline Json)
  | .array items => some (.array items)
  | .object members => some (.object members)
  | _ => none

/-- Resolving a tree resolves what stands for a field: the last member of its name. -/
theorem outline?_resolve {json : Json} {o : Outline Json} (h : json.outline? = some o) :
    ∃ resolved, json.resolve.outline? = some resolved ∧
      ∀ name index, resolved.field? name index = (o.field? name index).map resolve := by
  cases json with
  | array items =>
    cases h
    refine ⟨_, rfl, fun name index => ?_⟩
    rw [resolveItems_eq_map, Outline.field?, List.getElem?_map]
    rfl
  | object members =>
    cases h
    refine ⟨_, rfl, fun name index => ?_⟩
    rw [Outline.field?, Dictionary.lastNamed_entries_ofList, resolveMembers_eq_map, lastNamed_map]
    rfl
  | _ => cases h

/-- A value together with the place in a text where it stands. -/
abbrev Placed := { p : Json × Bytes // ∃ behind, p.1.Spelled p.2 behind }

theorem exists_placed_of_itemsSpelled {items : List Json} {first : Bool} {text rest : Bytes}
    (h : ItemsSpelled items first text rest) : ∃ placed : List Placed,
      placed.map (fun p => p.val.1) = items ∧
        ElementsAt (placed.map fun p => p.val.2) first text rest := by
  induction items generalizing first text with
  | nil => exact ⟨[], rfl, h⟩
  | cons json items ih =>
    obtain ⟨item, behind, hlead, hjson, h⟩ := h
    obtain ⟨placed, hitems, hplaces⟩ := ih h
    exact ⟨⟨(json, item), behind, hjson⟩ :: placed, congrArg _ hitems, hlead, behind, hjson.grammar,
      hplaces⟩

theorem exists_placed_of_membersSpelled {members : List (String × Json)} {first : Bool}
    {text rest : Bytes} (h : MembersSpelled members first text rest) :
    ∃ placed : List (String × Placed), placed.map (fun p => (p.1, p.2.val.1)) = members ∧
      MembersAt (placed.map fun p => (p.1, p.2.val.2)) first text rest := by
  induction members generalizing first text with
  | nil => exact ⟨[], rfl, h⟩
  | cons member members ih =>
    obtain ⟨name, json⟩ := member
    obtain ⟨start, quoted, colon, item, behind, hlead, hmark, hname, hcolon, hjson, h⟩ := h
    obtain ⟨placed, hmembers, hplaces⟩ := ih h
    exact ⟨(name, ⟨(json, item), behind, hjson⟩) :: placed, congrArg _ hmembers, start, quoted,
      colon, behind, hlead, hmark, hname, hcolon, hjson.grammar, hplaces⟩

/-- Where a tree with an outline is spelled, the text has the outline of the tree, with the place of
each value for the value. -/
theorem Spelled.outline {json : Json} {o : Outline Json} {text rest : Bytes}
    (h : json.Spelled text rest) (ho : json.outline? = some o) : ∃ placed : Outline Placed,
      placed.map (fun p => p.val.1) = o ∧ (placed.map fun p => p.val.2).At text rest := by
  cases json with
  | array items =>
    cases ho
    obtain ⟨inner, hopen, hitems⟩ := h
    obtain ⟨placed, rfl, hplaces⟩ := exists_placed_of_itemsSpelled hitems
    exact ⟨.array placed, rfl, inner, hopen, hplaces⟩
  | object members =>
    cases ho
    obtain ⟨inner, hopen, hmembers⟩ := h
    obtain ⟨placed, rfl, hplaces⟩ := exists_placed_of_membersSpelled hmembers
    exact ⟨.object placed, rfl, inner, hopen, hplaces⟩
  | _ => cases ho

/-- The same where the names in the tree are resolved: what stands for a field is that of its last
member. -/
theorem Spelled.outline_resolve {json : Json} {resolved : Outline Json} {text rest : Bytes}
    (h : json.Spelled text rest) (hresolved : json.resolve.outline? = some resolved) :
    ∃ placed : Outline Placed, json.outline? = some (placed.map fun p => p.val.1) ∧
      (placed.map fun p => p.val.2).At text rest ∧ ∀ name index, resolved.field? name index =
        (placed.field? name index).map fun p => p.val.1.resolve := by
  obtain ⟨o, ho⟩ : ∃ o, json.outline? = some o := by
    cases json with
    | array items => exact ⟨_, rfl⟩
    | object members => exact ⟨_, rfl⟩
    | _ => cases hresolved
  obtain ⟨_, hunique, hfield⟩ := outline?_resolve ho
  obtain rfl := Option.some.inj (hresolved.symm.trans hunique)
  obtain ⟨placed, rfl, hat⟩ := h.outline ho
  refine ⟨placed, ho, hat, fun name index => ?_⟩
  rw [hfield, Outline.field?_map, Option.map_map]
  rfl

end Json
end CredentialCeremony
