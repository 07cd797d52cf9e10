import CredentialCeremony.Proofs.Json.Numbers

set_option autoImplicit false

/-!
# Values with the repeated names resolved

What is made of the members of an object has none but these members, each name once
(`Dictionary.mem_of_mem_ofList`), and the last member of a name is the one that counts
(`Dictionary.get?_ofList`). A resolved value therefore repeats no name at any level
(`Json.distinct_resolve`), is nested no deeper than the value (`Json.depth_resolve_le`), and holds
none but its numbers (`Json.AllNumbers.resolve`). A member whose name no other has makes no
difference to the others (`Dictionary.entries_ofList_insert`).
-/

namespace CredentialCeremony

section Last

variable {β γ : Type}

/-- The value of the last member of a name. -/
def lastNamed (name : String) (members : List (String × β)) : Option β :=
  (members.filter fun member => member.1 = name).getLast?.map Prod.snd

theorem lastNamed_cons (name : String) (member : String × β) (members : List (String × β)) :
    lastNamed name (member :: members) =
      (lastNamed name members <|> if member.1 = name then some member.2 else none) := by
  by_cases hname : member.1 = name
  · rw [lastNamed, List.filter_cons_of_pos (by simpa using hname), List.getLast?_cons, lastNamed]
    cases (members.filter fun member => member.1 = name).getLast? <;> simp [hname]
  · rw [lastNamed, List.filter_cons_of_neg (by simpa using hname), lastNamed]
    simp [hname]

theorem lastNamed_map (name : String) (f : β → γ) (members : List (String × β)) :
    lastNamed name (members.map fun member => (member.1, f member.2)) =
      (lastNamed name members).map f := by
  simp only [lastNamed, List.filter_map, List.getLast?_map, Option.map_map]
  rfl

end Last

namespace Dictionary

variable {β : Type}

/-- Where no name is repeated, the first member of a name is the last. -/
theorem get?_eq_lastNamed (d : Dictionary β) (key : String) :
    d.get? key = lastNamed key d.entries := by
  obtain ⟨entries, hnodup⟩ := d
  rw [get?]
  induction entries with
  | nil => rfl
  | cons entry entries ih =>
    obtain ⟨name, value⟩ := entry
    rw [List.map_cons, List.nodup_cons] at hnodup
    rw [lastNamed_cons, ← ih hnodup.2]
    by_cases hname : name = key
    · subst hname
      have hnone : entries.lookup name = none := by
        rw [List.lookup_eq_none_iff]
        intro entry hentry
        rw [bne_iff_ne]
        rintro rfl
        exact hnodup.1 (List.mem_map.2 ⟨entry, hentry, rfl⟩)
      simp [List.lookup_cons_self, hnone]
    · have hne : (key == name) = false := beq_eq_false_iff_ne.2 (Ne.symm hname)
      simp [List.lookup_cons, hne, hname]

/-- A name has a value exactly if there is an entry of the two. -/
theorem get?_eq_some_iff {d : Dictionary β} {key : String} {value : β} :
    d.get? key = some value ↔ (key, value) ∈ d.entries := by
  obtain ⟨entries, hnodup⟩ := d
  rw [get?, List.lookup_eq_some_iff]
  constructor
  · rintro ⟨before, behind, rfl, -⟩
    exact List.mem_append_right _ List.mem_cons_self
  · intro h
    obtain ⟨before, behind, rfl⟩ := List.append_of_mem h
    refine ⟨before, behind, rfl, ?_⟩
    intro entry hentry
    rw [bne_iff_ne]
    rintro rfl
    rw [List.map_append, List.nodup_append] at hnodup
    exact hnodup.2.2 _ (List.mem_map_of_mem hentry) _ List.mem_cons_self rfl

/-- The last member of a name gives it its value. -/
theorem get?_ofList (members : List (String × β)) (key : String) :
    (ofList members).get? key = lastNamed key members := by
  -- generalized to the members that are added to a map
  have go (members : List (String × β)) : ∀ d : Dictionary β,
      (members.foldl (fun d member => d.insert member.1 member.2) d).get? key =
        (lastNamed key members <|> d.get? key) := by
    induction members with
    | nil => exact fun d => rfl
    | cons member members ih =>
      intro d
      rw [List.foldl_cons, ih, get?_insert, lastNamed_cons]
      by_cases hname : member.1 = key
      · cases lastNamed key members <;> simp [hname]
      · have hne : key ≠ member.1 := Ne.symm hname
        cases lastNamed key members <;> simp [hname, hne]
  rw [ofList, go]
  cases lastNamed key members <;> rfl

theorem lastNamed_entries_ofList (members : List (String × β)) (key : String) :
    lastNamed key (ofList members).entries = lastNamed key members := by
  rw [← get?_eq_lastNamed, get?_ofList]

theorem mem_setEntry {key : String} {value : β} {entries : List (String × β)} {m : String × β}
    (h : m ∈ setEntry key value entries) : m = (key, value) ∨ m ∈ entries := by
  induction entries with
  | nil => exact .inl (List.mem_singleton.1 h)
  | cons entry entries ih =>
    rw [setEntry] at h
    split at h
    · rcases List.mem_cons.1 h with rfl | hrest
      · exact .inl rfl
      · exact .inr (List.mem_cons_of_mem _ hrest)
    · rcases List.mem_cons.1 h with rfl | hrest
      · exact .inr List.mem_cons_self
      · exact (ih hrest).imp_right (List.mem_cons_of_mem _)

/-- The entries of the map that members make are among the members. -/
theorem mem_of_mem_ofList {members : List (String × β)} {m : String × β}
    (h : m ∈ (ofList members).entries) : m ∈ members := by
  -- generalized to the members that are added to a map
  have go (members : List (String × β)) : ∀ d : Dictionary β,
      m ∈ (members.foldl (fun d member => d.insert member.1 member.2) d).entries →
        m ∈ d.entries ∨ m ∈ members := by
    induction members with
    | nil => exact fun d h => .inl h
    | cons member members ih =>
      intro d h
      rcases ih _ h with hd | hrest
      · rcases mem_setEntry hd with rfl | hold
        · exact .inr List.mem_cons_self
        · exact .inl hold
      · exact .inr (List.mem_cons_of_mem _ hrest)
  rcases go members .empty h with hempty | hmem
  · exact absurd hempty List.not_mem_nil
  · exact hmem

/-- Setting an entry of another name leaves an entry where it is. -/
theorem setEntry_append_cons {name key : String} (hkey : key ≠ name) (value item : β)
    (front back : List (String × β)) : ∃ front' back',
      setEntry key value (front ++ back) = front' ++ back' ∧
      setEntry key value (front ++ (name, item) :: back) = front' ++ (name, item) :: back' := by
  induction front with
  | nil => exact ⟨[], setEntry key value back, rfl, by simp [setEntry, Ne.symm hkey]⟩
  | cons entry front ih =>
    by_cases hentry : entry.1 = key
    · exact ⟨(key, value) :: front, back, by simp [setEntry, hentry], by simp [setEntry, hentry]⟩
    · obtain ⟨front', back', hshort, hlong⟩ := ih
      refine ⟨entry :: front', back', ?_, ?_⟩
      · simp [setEntry, hentry, hshort]
      · simp [setEntry, hentry, hlong]

/-- A member whose name no other member has is an entry among those that the others make. -/
theorem entries_ofList_insert {name : String} {front back : List (String × β)}
    (hfront : ∀ member ∈ front, member.1 ≠ name) (hback : ∀ member ∈ back, member.1 ≠ name)
    (item : β) : ∃ front' back', (ofList (front ++ back)).entries = front' ++ back' ∧
      (ofList (front ++ (name, item) :: back)).entries = front' ++ (name, item) :: back' := by
  -- generalized to the members that are added to maps that differ in the one entry
  have go (back : List (String × β)) (hback : ∀ member ∈ back, member.1 ≠ name) :
      ∀ (d d' : Dictionary β) (front' back' : List (String × β)), d.entries = front' ++ back' →
        d'.entries = front' ++ (name, item) :: back' → ∃ front' back',
          (back.foldl (fun d member => d.insert member.1 member.2) d).entries = front' ++ back' ∧
          (back.foldl (fun d member => d.insert member.1 member.2) d').entries =
            front' ++ (name, item) :: back' := by
    induction back with
    | nil => exact fun d d' front' back' hd hd' => ⟨front', back', hd, hd'⟩
    | cons member back ih =>
      intro d d' front' back' hd hd'
      rw [List.forall_mem_cons] at hback
      obtain ⟨front₁, back₁, hshort, hlong⟩ :=
        setEntry_append_cons hback.1 member.2 item front' back'
      refine ih hback.2 _ _ front₁ back₁ ?_ ?_
      · exact (congrArg (setEntry member.1 member.2) hd).trans hshort
      · exact (congrArg (setEntry member.1 member.2) hd').trans hlong
  have hnew : name ∉ (ofList front).entries.map Prod.fst := by
    rw [List.mem_map]
    rintro ⟨member, hmember, hname⟩
    exact hfront member (mem_of_mem_ofList hmember) hname
  simp only [ofList, List.foldl_append, List.foldl_cons]
  refine go back hback _ _ (ofList front).entries [] (List.append_nil _).symm ?_
  exact setEntry_of_not_mem hnew

end Dictionary

namespace Json

theorem itemsDistinct_iff {items : List Json} :
    ItemsDistinct items ↔ ∀ json ∈ items, json.Distinct := by
  induction items with
  | nil => simp [ItemsDistinct]
  | cons json items ih => rw [ItemsDistinct, ih, List.forall_mem_cons]

theorem membersDistinct_iff {members : List (String × Json)} :
    MembersDistinct members ↔ ∀ member ∈ members, member.2.Distinct := by
  induction members with
  | nil => simp [MembersDistinct]
  | cons member members ih => rw [MembersDistinct, ih, List.forall_mem_cons]

/-- The entries that are made of members hold what the resolved members hold. -/
theorem forall_mem_ofList_resolveMembers {P : Json → Prop} {members : List (String × Json)}
    (h : ∀ member ∈ members, P member.2.resolve) :
    ∀ member ∈ (Dictionary.ofList (resolveMembers members)).entries, P member.2 := by
  intro member hmember
  have hresolved := Dictionary.mem_of_mem_ofList hmember
  rw [resolveMembers_eq_map] at hresolved
  obtain ⟨given, hgiven, rfl⟩ := List.mem_map.1 hresolved
  exact h given hgiven

/-- Every number in a resolved value is one of the value. -/
theorem AllNumbers.resolve {p : Number → Prop} {json : Json} (h : json.AllNumbers p) :
    json.resolve.AllNumbers p := by
  induction json with
  | null => exact h
  | bool b => exact h
  | number n => exact h
  | string s => exact h
  | array items ih =>
    rw [Json.resolve, resolveItems_eq_map, allNumbers_array_iff, List.forall_mem_map]
    intro json hjson
    exact ih json hjson (allNumbers_array_iff.1 h json hjson)
  | object members ih =>
    rw [Json.resolve, allNumbers_object_iff]
    apply forall_mem_ofList_resolveMembers
    intro member hmember
    exact ih member hmember (allNumbers_object_iff.1 h member hmember)

/-- Resolving makes nothing deeper. -/
theorem depth_resolve_le (json : Json) : json.resolve.depth ≤ json.depth := by
  induction json with
  | null => exact Nat.le_refl _
  | bool b => exact Nat.le_refl _
  | number n => exact Nat.le_refl _
  | string s => exact Nat.le_refl _
  | array items ih =>
    rw [resolve, resolveItems_eq_map]
    refine Nat.succ_le_succ (itemsDepth_le_iff.2 (List.forall_mem_map.2 fun json hjson => ?_))
    exact Nat.le_trans (ih json hjson) (itemsDepth_le_iff.1 (Nat.le_refl _) json hjson)
  | object members ih =>
    rw [resolve]
    refine Nat.succ_le_succ (membersDepth_le_iff.2 ?_)
    apply forall_mem_ofList_resolveMembers (P := fun json => json.depth ≤ membersDepth members)
    intro member hmember
    exact Nat.le_trans (ih member hmember) (membersDepth_le_iff.1 (Nat.le_refl _) member hmember)

/-- A resolved value repeats no name. -/
theorem distinct_resolve (json : Json) : json.resolve.Distinct := by
  induction json with
  | null => trivial
  | bool b => trivial
  | number n => trivial
  | string s => trivial
  | array items ih =>
    rw [resolve, resolveItems_eq_map, Distinct, itemsDistinct_iff]
    exact List.forall_mem_map.2 ih
  | object members ih =>
    rw [resolve]
    refine ⟨Dictionary.nodup _, membersDistinct_iff.2 ?_⟩
    exact forall_mem_ofList_resolveMembers ih

/-- What resolves to an array is an array, with its elements resolved. -/
theorem exists_items_of_resolve {json : Json} {items : List Json}
    (h : json.resolve = .array items) :
    ∃ entries, json = .array entries ∧ items = entries.map resolve := by
  cases json with
  | array entries =>
    rw [resolve, resolveItems_eq_map, array.injEq] at h
    exact ⟨entries, rfl, h.symm⟩
  | _ => cases h

end Json
end CredentialCeremony
