import CredentialCeremony.Proofs.Schema.Declared
import CredentialCeremony.Proofs.Schema.Place
import Mathlib.Logic.Relation

set_option autoImplicit false

/-!
# Documents that say the same

Two documents say the same to a reader if one comes from the other by a change that a record does not
see: its members stand in another order, a member of an unknown name is added, a member has another
name of its field, or the values of all fields stand in an array (`Schema.Variation`). This holds at
any depth, as far as records go; the members of an extensible record and of a dictionary are kept as
they are, and count.

Main statement: variations are read as the same (`Schema.Variation.answer?_eq`), and so are documents
that any number of them lead to (`Schema.answer?_eq_of_eqvGen`).
-/

namespace CredentialCeremony

section Items

variable {ι : Type} {declared : List FieldInfo} {given other : String} {index : Nat} {item : ι}
  {front back members members' : List (String × ι)}

/-- The order of the members does not count. -/
theorem itemsFor_perm (h : members.Perm members') (index : Nat) :
    (itemsFor declared index members).Perm (itemsFor declared index members') :=
  (h.filter _).map _

/-- A member of an unknown name stands for no field. -/
theorem itemsFor_insert_unknown (h : standsFor? declared given = none) :
    itemsFor declared index (front ++ (given, item) :: back) =
      itemsFor declared index (front ++ back) := by
  simp [itemsFor, h]

/-- The name of a member counts only for the field that it stands for. -/
theorem itemsFor_rename (h : standsFor? declared given = standsFor? declared other) :
    itemsFor declared index (front ++ (given, item) :: back) =
      itemsFor declared index (front ++ (other, item) :: back) := by
  by_cases hindex : standsFor? declared other = some index
  · simp [itemsFor, h, hindex]
  · simp [itemsFor, h, hindex]

end Items

namespace Schema

/-- One change of a document that a record in it does not see. -/
inductive Variation : {α : Type} → Schema α → Json → Json → Prop where
  /-- The members stand in another order. -/
  | reorder {α : Type} {s : Schema α} {declared : List FieldInfo}
      {members members' : List (String × Json)} (h : s.Declares declared)
      (hperm : members.Perm members') : Variation s (.object members) (.object members')
  /-- There is one member more, whose name is not known. -/
  | insert {α : Type} {s : Schema α} {declared : List FieldInfo} {given : String}
      (h : s.Declares declared) (hunknown : standsFor? declared given = none) (item : Json)
      (front back : List (String × Json)) :
      Variation s (.object (front ++ back)) (.object (front ++ (given, item) :: back))
  /-- A member has another name of the field that it stands for. -/
  | rename {α : Type} {s : Schema α} {declared : List FieldInfo} {given other : String}
      (h : s.Declares declared) (hsame : standsFor? declared given = standsFor? declared other)
      (item : Json) (front back : List (String × Json)) :
      Variation s (.object (front ++ (given, item) :: back))
        (.object (front ++ (other, item) :: back))
  /-- The values of all fields stand in an array. -/
  | array {α : Type} {s : Schema α} {declared : List FieldInfo} {items : List Json}
      (h : s.Declares declared) (hapart : Apart declared) (hitems : items.length = declared.length) :
      Variation s (.object ((declared.map FieldInfo.name).zip items)) (.array items)
  /-- The change is made in a value further inside. -/
  | inside {α β : Type} {part : Schema β} {s : Schema α} {doc : Json → Json} {x y : Json}
      (hplace : Place part s doc) (h : Variation part x y) : Variation s (doc x) (doc y)

/-- What varies is a record, and so not null. -/
theorem Variation.ne_null {α : Type} {s : Schema α} {x y : Json} (h : Variation s x y) :
    x ≠ .null ∧ y ≠ .null := by
  induction h with
  | reorder | insert | rename | array => exact ⟨Json.noConfusion, Json.noConfusion⟩
  | inside hplace _ ih => exact ⟨hplace.ne_null ih.1, hplace.ne_null ih.2⟩

/-- Variations are read as the same, or both are refused. -/
theorem Variation.answer?_eq {α : Type} {s : Schema α} {x y : Json} (h : Variation s x y) :
    (s.extract x).answer? = (s.extract y).answer? := by
  induction h with
  | reorder h hperm => exact answer?_object_congr h (itemsFor_perm hperm)
  | insert h hunknown item front back =>
    apply answer?_object_congr h
    intro index
    rw [itemsFor_insert_unknown hunknown]
  | rename h hsame item front back =>
    apply answer?_object_congr h
    intro index
    rw [itemsFor_rename hsame]
  | array h hapart hitems => rw [extract_array_eq_object h hapart hitems]
  | inside hplace h ih => exact hplace.congr h.ne_null.1 h.ne_null.2 ih

/-- Documents that any number of variations lead to are read as the same, or all are refused. -/
theorem answer?_eq_of_eqvGen {α : Type} {s : Schema α} {x y : Json}
    (h : Relation.EqvGen s.Variation x y) : (s.extract x).answer? = (s.extract y).answer? := by
  induction h with
  | rel x y hxy => exact hxy.answer?_eq
  | refl x => rfl
  | symm x y _ ih => exact ih.symm
  | trans x y z _ _ ihxy ihyz => exact ihxy.trans ihyz

end Schema
end CredentialCeremony
