import Mathlib.Data.List.Forall2

set_option autoImplicit false

/-!
# Lists whose elements may fail

What a function that may fail makes of a list: something if it makes something of every element, and
then these elements in their order; the list that another function was applied to if it undoes that
function.
-/

namespace CredentialCeremony

variable {α β : Type} {f : α → Option β}

theorem isSome_mapM_iff {xs : List α} :
    (xs.mapM f).isSome = true ↔ ∀ x ∈ xs, (f x).isSome = true := by
  induction xs with
  | nil => simp
  | cons x xs ih =>
    rw [List.forall_mem_cons, ← ih, List.mapM_cons]
    cases f x <;> cases xs.mapM f <;> simp

/-- A list is made of another exactly if its elements are made of those of the other, place by
place. -/
theorem mapM_eq_some_iff {xs : List α} {ys : List β} :
    xs.mapM f = some ys ↔ List.Forall₂ (fun x y => f x = some y) xs ys := by
  induction xs generalizing ys with
  | nil =>
    rw [List.forall₂_nil_left_iff, List.mapM_nil]
    exact Option.some_inj.trans eq_comm
  | cons x xs ih =>
    rw [List.mapM_cons, List.forall₂_cons_left_iff]
    simp only [Option.bind_eq_bind, Option.bind_eq_some_iff, Option.pure_def, Option.some.injEq, ih]
    constructor
    · rintro ⟨y, hy, others, hothers, rfl⟩
      exact ⟨y, others, hy, hothers, rfl⟩
    · rintro ⟨y, others, hy, hothers, rfl⟩
      exact ⟨y, hy, others, hothers, rfl⟩

/-- What is related to a list place by place has, for one place in it, a place of its own. -/
theorem forall₂_insert_iff {R : α → β → Prop} {front back : List α} {x : α} {ys : List β} :
    List.Forall₂ R (front ++ x :: back) ys ↔ ∃ before y behind, ys = before ++ y :: behind ∧
      List.Forall₂ R front before ∧ R x y ∧ List.Forall₂ R back behind := by
  constructor
  · intro h
    induction front generalizing ys with
    | nil =>
      obtain ⟨y, behind, hy, hbehind, rfl⟩ := List.forall₂_cons_left_iff.1 h
      exact ⟨[], y, behind, rfl, .nil, hy, hbehind⟩
    | cons first front ih =>
      obtain ⟨z, others, hz, hothers, rfl⟩ := List.forall₂_cons_left_iff.1 h
      obtain ⟨before, y, behind, rfl, hbefore, hy, hbehind⟩ := ih hothers
      exact ⟨z :: before, y, behind, rfl, .cons hz hbefore, hy, hbehind⟩
  · rintro ⟨before, y, behind, rfl, hbefore, hy, hbehind⟩
    exact List.rel_append hbefore (.cons hy hbehind)

theorem length_of_mapM_eq_some {xs : List α} {ys : List β} (h : xs.mapM f = some ys) :
    ys.length = xs.length :=
  (mapM_eq_some_iff.1 h).length_eq.symm

/-- What undoes a function on every element of a list gives the list back. -/
theorem mapM_map_eq_some {g : β → α} {ys : List β} (h : ∀ y ∈ ys, f (g y) = some y) :
    (ys.map g).mapM f = some ys := by
  rw [mapM_eq_some_iff, List.forall₂_map_left_iff]
  exact List.forall₂_same.2 h

end CredentialCeremony
