import CredentialCeremony.Availability.Requirement
import CredentialCeremony.Proofs.Availability.Version
import Mathlib.Data.List.DropRight

set_option autoImplicit false

/-!
# The order of versions

Versions of different lengths are compared as if each went on in zeros for ever, so what counts of a
version is the segment at every place (`segmentAt`), and of two versions the first place where they
differ. Where one version exceeds another, any third one is exceeded by the former or exceeds the
latter (`Exceeds.cotrans`); from this the laws of a total preorder follow, and two versions are equal
under it exactly if they are the same up to zeros at the end (`compare_eq_eq_iff_significant`).

Main statement: `order_laws`.
-/

namespace CredentialCeremony

namespace Version

variable {u v w : Version}

/-! ## Outcomes of a comparison -/

/-- At the first place where two versions differ, they are compared by their segments. -/
theorem compare_of_first {i : Nat} (hdiffer : v.segmentAt i ≠ w.segmentAt i)
    (hbefore : ∀ j < i, v.segmentAt j = w.segmentAt j) :
    compare v w = Ord.compare (v.segmentAt i) (w.segmentAt i) :=
  compareSegments_of_first hdiffer hbefore

/-- Versions are equal under the order exactly if they differ nowhere. -/
theorem compare_eq_eq_iff : compare v w = .eq ↔ ∀ i, v.segmentAt i = w.segmentAt i := by
  constructor
  · intro h
    rcases exists_first_difference v w with hsame | ⟨i, hdiffer, hbefore⟩
    · exact hsame
    · rw [compare_of_first hdiffer hbefore, Std.compare_eq_iff_eq] at h
      exact absurd h hdiffer
  · exact compareSegments_of_getD_eq

/-- Only the segments at the places count. -/
theorem compare_congr {v' w' : Version} (hv : ∀ i, v.segmentAt i = v'.segmentAt i)
    (hw : ∀ i, w.segmentAt i = w'.segmentAt i) : compare v w = compare v' w' := by
  rcases exists_first_difference v w with hsame | ⟨i, hdiffer, hbefore⟩
  · have hsame' : ∀ i, v'.segmentAt i = w'.segmentAt i := by
      intro i
      rw [← hv, ← hw, hsame i]
    rw [compare_eq_eq_iff.2 hsame, compare_eq_eq_iff.2 hsame']
  · have hbefore' : ∀ j < i, v'.segmentAt j = w'.segmentAt j := by
      intro j hj
      rw [← hv, ← hw, hbefore j hj]
    rw [compare_of_first hdiffer hbefore, hv, hw]
    rw [hv, hw] at hdiffer
    exact (compare_of_first hdiffer hbefore').symm

/-- The other way round, a comparison has the opposite outcome. -/
theorem compare_swap (v w : Version) : compare v w = (compare w v).swap := by
  rcases exists_first_difference v w with hsame | ⟨i, hdiffer, hbefore⟩
  · have hsame' : ∀ i, w.segmentAt i = v.segmentAt i := fun i => (hsame i).symm
    rw [compare_eq_eq_iff.2 hsame, compare_eq_eq_iff.2 hsame']
    rfl
  · have hbefore' : ∀ j < i, w.segmentAt j = v.segmentAt j := fun j hj => (hbefore j hj).symm
    rw [compare_of_first hdiffer hbefore, compare_of_first hdiffer.symm hbefore']
    exact Std.OrientedCmp.eq_swap

theorem compare_isLE_iff : (compare v w).isLE = true ↔ ¬ Exceeds v w := by
  rw [← compare_eq_gt_iff]
  cases compare v w <;> simp

/-- Of a version and one that it exceeds, any third version is exceeded by the former or exceeds the
latter. -/
theorem Exceeds.cotrans (h : Exceeds u w) (v : Version) : Exceeds u v ∨ Exceeds v w := by
  obtain ⟨i, hless, hbefore⟩ := h
  -- the third version leaves the other two before they part, or at that place it is on a side
  by_cases hearlier : ∃ j, j < i ∧ v.segmentAt j ≠ u.segmentAt j
  · obtain ⟨hj, hdiffer⟩ := Nat.find_spec hearlier
    have hfirst : ∀ k < Nat.find hearlier, v.segmentAt k = u.segmentAt k := by
      intro k hk
      by_contra hne
      exact Nat.find_min hearlier hk ⟨Nat.lt_trans hk hj, hne⟩
    rcases UInt64.lt_or_lt_of_ne hdiffer with hlt | hgt
    · exact .inl ⟨_, hlt, fun k hk => (hfirst k hk).symm⟩
    · refine .inr ⟨_, hbefore _ hj ▸ hgt, ?_⟩
      intro k hk
      rw [hfirst k hk, hbefore k (Nat.lt_trans hk hj)]
  · have hsame : ∀ j < i, v.segmentAt j = u.segmentAt j := by
      intro j hj
      by_contra hne
      exact hearlier ⟨j, hj, hne⟩
    by_cases hbelow : v.segmentAt i < u.segmentAt i
    · exact .inl ⟨i, hbelow, fun j hj => (hsame j hj).symm⟩
    · refine .inr ⟨i, UInt64.lt_of_lt_of_le hless (UInt64.not_lt.1 hbelow), ?_⟩
      intro j hj
      rw [hsame j hj, hbefore j hj]

theorem compare_isLE_trans (huv : (compare u v).isLE = true) (hvw : (compare v w).isLE = true) :
    (compare u w).isLE = true := by
  rw [compare_isLE_iff] at huv hvw ⊢
  intro h
  rcases h.cotrans v with hexceeds | hexceeds
  · exact huv hexceeds
  · exact hvw hexceeds

instance : Std.TransCmp compare where
  eq_swap := compare_swap _ _
  isLE_trans := compare_isLE_trans

/-- Every outcome is handed on along a chain. -/
theorem compare_trans {o : Ordering} (huv : compare u v = o) (hvw : compare v w = o) :
    compare u w = o := by
  cases o with
  | lt => exact Std.TransCmp.lt_trans huv hvw
  | eq => exact Std.TransCmp.eq_trans huv hvw
  | gt => exact Std.TransCmp.gt_trans huv hvw

/-! ## Zeros at the end -/

/-- The segments without the zeros at the end. -/
def significant (v : Version) : List UInt64 := v.segments.rdropWhile (· == 0)

/-- The version with zeros behind its segments. -/
def padded (v : Version) (n : Nat) : Version := ⟨v.segments ++ List.replicate n 0⟩

theorem getD_append_zeros (xs : List UInt64) (n i : Nat) :
    (xs ++ List.replicate n 0).getD i 0 = xs.getD i 0 := by
  by_cases hi : i < xs.length
  · rw [List.getD_append _ _ _ _ hi]
  · have hle := Nat.le_of_not_lt hi
    rw [List.getD_append_right _ _ _ _ hle, List.getD_eq_default _ _ hle,
      List.getD_eq_getElem?_getD, List.getElem?_replicate]
    split <;> rfl

theorem segmentAt_padded (v : Version) (n i : Nat) :
    (v.padded n).segmentAt i = v.segmentAt i :=
  getD_append_zeros v.segments n i

/-- What is dropped at the end of segments are zeros. -/
theorem exists_eq_rdropWhile_append (xs : List UInt64) :
    ∃ n, xs = xs.rdropWhile (· == 0) ++ List.replicate n 0 := by
  induction xs using List.reverseRecOn with
  | nil => exact ⟨0, rfl⟩
  | append_singleton xs x ih =>
    by_cases hx : x = 0
    · subst hx
      obtain ⟨n, hn⟩ := ih
      refine ⟨n + 1, ?_⟩
      rw [List.rdropWhile_concat_pos (· == 0) xs 0 rfl, List.replicate_succ', ← List.append_assoc,
        ← hn]
    · refine ⟨0, ?_⟩
      rw [List.rdropWhile_concat_neg (· == 0) xs x (by simpa using hx), List.replicate_zero,
        List.append_nil]

theorem getD_rdropWhile (xs : List UInt64) (i : Nat) :
    (xs.rdropWhile (· == 0)).getD i 0 = xs.getD i 0 := by
  obtain ⟨n, hn⟩ := exists_eq_rdropWhile_append xs
  conv_rhs => rw [hn]
  exact (getD_append_zeros _ n i).symm

/-- Behind the last segment that is no zero there is none. -/
theorem length_rdropWhile_le {xs ys : List UInt64} (h : ∀ i, xs.getD i 0 = ys.getD i 0) :
    (xs.rdropWhile (· == 0)).length ≤ (ys.rdropWhile (· == 0)).length := by
  by_contra hlt
  rw [Nat.not_le] at hlt
  have hne : xs.rdropWhile (· == 0) ≠ [] := List.ne_nil_of_length_pos (Nat.zero_lt_of_lt hlt)
  have hlast := List.rdropWhile_last_not (· == 0) xs hne
  -- the other list has a zero at this place, since it has ended before
  have hzero : (ys.rdropWhile (· == 0)).getD ((xs.rdropWhile (· == 0)).length - 1) 0 = 0 :=
    List.getD_eq_default _ _ (Nat.le_sub_one_of_lt hlt)
  rw [getD_rdropWhile, ← h, ← getD_rdropWhile, List.getD_eq_getElem _ _ (by omega),
    ← List.getLast_eq_getElem hne] at hzero
  rw [hzero] at hlast
  exact hlast rfl

theorem rdropWhile_eq_iff {xs ys : List UInt64} :
    xs.rdropWhile (· == 0) = ys.rdropWhile (· == 0) ↔ ∀ i, xs.getD i 0 = ys.getD i 0 := by
  constructor
  · intro h i
    rw [← getD_rdropWhile, h, getD_rdropWhile]
  · intro h
    have hlength := Nat.le_antisymm (length_rdropWhile_le h)
      (length_rdropWhile_le fun i => (h i).symm)
    apply List.ext_getElem hlength
    intro i hi hi'
    rw [← List.getD_eq_getElem _ 0 hi, ← List.getD_eq_getElem _ 0 hi', getD_rdropWhile, h,
      ← getD_rdropWhile]

/-- Versions are equal under the order exactly if they are the same up to zeros at the end. -/
theorem compare_eq_eq_iff_significant : compare v w = .eq ↔ v.significant = w.significant :=
  compare_eq_eq_iff.trans rdropWhile_eq_iff.symm

/-- Zeros at the end of either side make no difference. -/
theorem compare_padded (v w : Version) (m n : Nat) :
    compare (v.padded m) (w.padded n) = compare v w :=
  compare_congr (segmentAt_padded v m) (segmentAt_padded w n)

theorem same_iff : same v w = true ↔ compare v w = .eq := by
  rw [same, beq_iff_eq]

end Version

/-- Zeros at the end of a version or of a threshold make no difference to a requirement. -/
theorem Requirement.accepts_padded (r : Requirement) (v : Version) (m n : Nat) :
    (Requirement.mk r.comparison (r.threshold.padded m)).accepts (v.padded n) = r.accepts v := by
  rw [accepts, Version.compare_padded, accepts]

namespace Version

/-! ## The laws together -/

/-- Versions are compared by a total preorder, in which equal are just those that are the same up to
zeros at the end, while all others are told apart by the segments at the first place where they
differ, a missing one being zero. Equality and the order that allows for more say the same. Zeros at
the end change no comparison and the outcome of no requirement. -/
theorem order_laws :
    (∀ v, compare v v = .eq) ∧
    (∀ u v, compare v u = (compare u v).swap) ∧
    (∀ u v, (compare u v).isLE = true ∨ (compare v u).isLE = true) ∧
    (∀ u v w, (compare u v).isLE = true → (compare v w).isLE = true → (compare u w).isLE = true) ∧
    (∀ u v w o, compare u v = o → compare v w = o → compare u w = o) ∧
    (∀ u v, compare u v = .eq ↔ u.significant = v.significant) ∧
    (∀ u v, compare u v ≠ .eq → ∃ i, u.segmentAt i ≠ v.segmentAt i ∧
      (∀ j < i, u.segmentAt j = v.segmentAt j) ∧
        compare u v = Ord.compare (u.segmentAt i) (v.segmentAt i)) ∧
    (∀ u v, (same u v = true ↔ compare u v = .eq) ∧ partialCompare u v = some (compare u v)) ∧
    (∀ u v m n, compare (u.padded m) (v.padded n) = compare u v) ∧
    ∀ (r : Requirement) v m n,
      (Requirement.mk r.comparison (r.threshold.padded m)).accepts (v.padded n) = r.accepts v := by
  refine ⟨compare_self, fun u v => compare_swap v u, ?_, fun u v w => compare_isLE_trans,
    fun u v w o => compare_trans, fun u v => compare_eq_eq_iff_significant, ?_,
    fun u v => ⟨same_iff, rfl⟩, compare_padded, Requirement.accepts_padded⟩
  · intro u v
    rw [compare_swap v u]
    cases compare u v <;> simp
  · intro u v hne
    rcases exists_first_difference u v with hsame | ⟨i, hdiffer, hbefore⟩
    · exact absurd (compare_eq_eq_iff.2 hsame) hne
    · exact ⟨i, hdiffer, hbefore, compare_of_first hdiffer hbefore⟩

/-- Versions of several lengths in a chain, the first two of which are equal. -/
theorem order_laws_of_lengths :
    (compare ⟨[118, 1]⟩ ⟨[118, 1, 0, 0]⟩).isLE = true ∧
      (compare ⟨[118, 1, 0, 0]⟩ ⟨[118, 1, 0, 0, 70]⟩).isLE = true ∧
      (compare ⟨[118, 1]⟩ ⟨[118, 1, 0, 0, 70]⟩).isLE = true ∧
      compare ⟨[118, 1]⟩ ⟨[118, 1, 0, 0, 70]⟩ = .lt ∧
      compare ⟨[118, 1, 0, 0, 70]⟩ ⟨[118, 2]⟩ = .lt ∧
      compare ⟨[118, 1]⟩ ⟨[118, 2]⟩ = .lt ∧
      ∃ i, segmentAt ⟨[118, 1]⟩ i ≠ segmentAt ⟨[118, 1, 0, 0, 70]⟩ i := by
  obtain ⟨-, -, -, hle, hchain, -, hfirst, -⟩ := order_laws
  have hequal : (compare ⟨[118, 1]⟩ ⟨[118, 1, 0, 0]⟩).isLE = true := by decide
  have hlonger : (compare ⟨[118, 1, 0, 0]⟩ ⟨[118, 1, 0, 0, 70]⟩).isLE = true := by decide
  have hless : compare ⟨[118, 1]⟩ ⟨[118, 1, 0, 0, 70]⟩ = .lt := by decide
  have hshorter : compare ⟨[118, 1, 0, 0, 70]⟩ ⟨[118, 2]⟩ = .lt := by decide
  obtain ⟨i, hdiffer, -⟩ := hfirst ⟨[118, 1]⟩ ⟨[118, 1, 0, 0, 70]⟩ (by decide)
  exact ⟨hequal, hlonger, hle _ _ _ hequal hlonger, hless, hshorter, hchain _ _ _ _ hless hshorter,
    i, hdiffer⟩

end Version
end CredentialCeremony
