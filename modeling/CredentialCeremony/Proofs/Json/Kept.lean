import CredentialCeremony.Proofs.Json.Resolution
import Mathlib.Data.List.Forall2
import Mathlib.Data.List.Induction

set_option autoImplicit false

/-!
# Values that are kept up to repeated names

`Json.Kept` says without any map what becomes of a value that is kept: each object has every name
once, in the order of the first members of the names, with what is kept of the last member, and
everything else stays as it is. That is the value with the repeated names resolved
(`Json.kept_iff`), and it does not matter whether members of some names are taken out of an object
before or after (`Dictionary.filter_entries_ofList`).
-/

namespace CredentialCeremony

variable {β : Type}

/-- The last member of a name is a member. -/
theorem mem_of_lastNamed {name : String} {value : β} {members : List (String × β)}
    (h : lastNamed name members = some value) : (name, value) ∈ members := by
  obtain ⟨⟨given, _⟩, hlast, rfl⟩ := Option.map_eq_some_iff.1 h
  obtain ⟨hmem, hname⟩ := List.mem_filter.1 (List.mem_of_getLast? hlast)
  obtain rfl : given = name := of_decide_eq_true hname
  exact hmem

theorem lastNamed_eq_none_iff {name : String} {members : List (String × β)} :
    lastNamed name members = none ↔ name ∉ members.map Prod.fst := by
  rw [lastNamed, Option.map_eq_none_iff, List.getLast?_eq_none_iff, List.filter_eq_nil_iff]
  simp only [decide_eq_true_eq, List.mem_map, not_exists, not_and]

/-- Members of the same names in the same order are the same if those of one name are. -/
theorem eq_of_map_fst_eq {first second : List (String × β)}
    (hnames : first.map Prod.fst = second.map Prod.fst)
    (h : ∀ name a b, (name, a) ∈ first → (name, b) ∈ second → a = b) : first = second := by
  induction first generalizing second with
  | nil => exact (List.map_eq_nil_iff.1 hnames.symm).symm
  | cons member first ih =>
    obtain ⟨name, a⟩ := member
    obtain ⟨⟨_, b⟩, others, rfl, rfl, hothers⟩ := List.map_eq_cons_iff.1 hnames.symm
    obtain rfl := h _ a b List.mem_cons_self List.mem_cons_self
    rw [ih hothers.symm]
    intro name a b ha hb
    exact h name a b (List.mem_cons_of_mem _ ha) (List.mem_cons_of_mem _ hb)

namespace Dictionary

theorem ofList_concat (members : List (String × β)) (member : String × β) :
    ofList (members ++ [member]) = (ofList members).insert member.1 member.2 := by
  rw [ofList, List.foldl_append]
  rfl

/-- The names stand in the order of their first members. -/
theorem keys_ofList (members : List (String × β)) :
    (ofList members).keys = (members.map Prod.fst).eraseDups := by
  -- one member more at the end
  induction members using List.reverseRecOn with
  | nil => rfl
  | append_singleton members member ih =>
    simp only [ofList_concat, keys_insert, ih, List.mem_eraseDups, List.map_append,
      List.map_singleton, List.eraseDups_append]
    by_cases hmem : member.1 ∈ members.map Prod.fst
    · simp [List.removeAll, hmem]
    · simp [List.removeAll, hmem, List.eraseDups_cons]

/-- Setting an entry and then leaving out the entries of some names is leaving them out first. -/
theorem filter_setEntry (p : String → Bool) (key : String) (value : β)
    (entries : List (String × β)) :
    (setEntry key value entries).filter (fun entry => p entry.1) =
      if p key then setEntry key value (entries.filter fun entry => p entry.1)
      else entries.filter fun entry => p entry.1 := by
  induction entries with
  | nil => simp [setEntry, List.filter_singleton]
  | cons entry entries ih =>
    by_cases hentry : entry.1 = key
    · subst hentry
      by_cases hp : p entry.1 = true
      · simp [setEntry, hp]
      · simp [setEntry, hp]
    · by_cases hp : p entry.1 = true
      · simp only [setEntry, hentry, if_false, List.filter_cons_of_pos, hp, ih]
        split <;> rfl
      · simp only [setEntry, hentry, if_false, ih, List.filter_cons, hp]
        simp

/-- The entries of some names are those that the members of these names make. -/
theorem filter_entries_ofList (p : String → Bool) (members : List (String × β)) :
    (ofList members).entries.filter (fun entry => p entry.1) =
      (ofList (members.filter fun member => p member.1)).entries := by
  induction members using List.reverseRecOn with
  | nil => rfl
  | append_singleton members member ih =>
    have hentries : (ofList (members ++ [member])).entries =
        setEntry member.1 member.2 (ofList members).entries :=
      congrArg entries (ofList_concat members member)
    rw [hentries, filter_setEntry, ih, List.filter_append, List.filter_singleton]
    by_cases hp : p member.1 = true
    · simp only [hp, if_true, cond_true, ofList_concat]
      rfl
    · simp [hp]

/-- The entries are told by the order of the names and by the last member of each. -/
theorem eq_entries_ofList {members kept : List (String × β)}
    (hnames : kept.map Prod.fst = (members.map Prod.fst).eraseDups)
    (h : ∀ name value, (name, value) ∈ kept → lastNamed name members = some value) :
    kept = (ofList members).entries := by
  apply eq_of_map_fst_eq
  · rw [hnames, ← keys_ofList]
    rfl
  · intro name a b ha hb
    have hlast : lastNamed name members = some b := by
      rw [← get?_ofList, get?_eq_some_iff]
      exact hb
    exact Option.some.inj ((h name a ha).symm.trans hlast)

end Dictionary

/-- The entries have the name of every member once, in the order of the first members of the names,
with the value of the last one. -/
structure LastOfEach (members entries : List (String × β)) : Prop where
  names : entries.map Prod.fst = (members.map Prod.fst).eraseDups
  values : ∀ name value, (name, value) ∈ entries → lastNamed name members = some value

/-- These are the entries of the map that the members make. -/
theorem lastOfEach_iff {members entries : List (String × β)} :
    LastOfEach members entries ↔ entries = (Dictionary.ofList members).entries := by
  constructor
  · rintro ⟨hnames, hvalues⟩
    exact Dictionary.eq_entries_ofList hnames hvalues
  · rintro rfl
    refine ⟨Dictionary.keys_ofList members, ?_⟩
    intro name value hmem
    rw [← Dictionary.get?_ofList, Dictionary.get?_eq_some_iff]
    exact hmem

/-- It makes no difference whether the values are changed before or after. -/
theorem LastOfEach.map {γ : Type} {members entries : List (String × β)}
    (h : LastOfEach members entries) (f : β → γ) :
    LastOfEach (members.map fun member => (member.1, f member.2))
      (entries.map fun entry => (entry.1, f entry.2)) := by
  constructor
  · rw [List.map_map, List.map_map]
    exact h.names
  · intro name value hmem
    obtain ⟨entry, hentry, hsame⟩ := List.mem_map.1 hmem
    cases hsame
    rw [lastNamed_map, h.values entry.1 entry.2 hentry]
    rfl

namespace Json

/-- The second value is what is kept of the first: the objects in it have every name once. -/
inductive Kept : Json → Json → Prop where
  | null : Kept .null .null
  | bool (b : Bool) : Kept (.bool b) (.bool b)
  | number (n : Number) : Kept (.number n) (.number n)
  | string (s : String) : Kept (.string s) (.string s)
  | array {items kept : List Json} : List.Forall₂ Kept items kept → Kept (.array items) (.array kept)
  /-- A name stands where it has been given first, with the value that it has been given last. -/
  | object {members kept : List (String × Json)} :
    kept.map Prod.fst = (members.map Prod.fst).eraseDups →
    (∀ name given json, lastNamed name members = some given → (name, json) ∈ kept →
      Kept given json) → Kept (.object members) (.object kept)

theorem kept_resolve (json : Json) : json.Kept json.resolve := by
  induction json with
  | null => exact .null
  | bool b => exact .bool b
  | number n => exact .number n
  | string s => exact .string s
  | array items ih =>
    rw [resolve, resolveItems_eq_map]
    exact .array (List.forall₂_map_right_iff.2 (List.forall₂_same.2 ih))
  | object members ih =>
    rw [resolve, resolveMembers_eq_map]
    refine .object ?_ ?_
    · refine (Dictionary.keys_ofList _).trans ?_
      rw [List.map_map]
      rfl
    · intro name given json hgiven hjson
      have hlast : lastNamed name (members.map fun member => (member.1, member.2.resolve)) =
          some json := by
        rw [← Dictionary.get?_ofList, Dictionary.get?_eq_some_iff]
        exact hjson
      rw [lastNamed_map, hgiven] at hlast
      cases hlast
      exact ih _ (mem_of_lastNamed hgiven)

theorem resolve_of_kept {json kept : Json} (h : json.Kept kept) : json.resolve = kept := by
  induction json generalizing kept with
  | null | bool b | number n | string s =>
    cases h
    rfl
  | array items ih =>
    cases h with
    | array h =>
      rw [resolve, resolveItems_eq_map, array.injEq, ← List.forall₂_eq_eq_eq,
        List.forall₂_map_left_iff]
      have hboth := (List.forall₂_and_left (p := fun given => ∀ {kept}, given.Kept kept →
        given.resolve = kept) _ _).2 ⟨ih, h⟩
      exact hboth.imp fun given json hjson => hjson.1 hjson.2
  | object members ih =>
    cases h with
    | object hnames h =>
      rw [resolve, resolveMembers_eq_map, object.injEq]
      refine (Dictionary.eq_entries_ofList ?_ ?_).symm
      · rw [hnames, List.map_map]
        rfl
      · intro name json hjson
        -- a name that is kept has been given
        obtain ⟨given, hgiven⟩ : ∃ given, lastNamed name members = some given := by
          rw [← Option.ne_none_iff_exists', ne_eq, lastNamed_eq_none_iff, Decidable.not_not,
            ← List.mem_eraseDups, ← hnames]
          exact List.mem_map_of_mem hjson
        rw [lastNamed_map, hgiven, Option.map_some]
        exact congrArg some (ih _ (mem_of_lastNamed hgiven) (h name given json hgiven hjson))

/-- What is kept of a value is the value with the repeated names resolved. -/
theorem kept_iff {json kept : Json} : json.Kept kept ↔ json.resolve = kept := by
  constructor
  · exact resolve_of_kept
  · rintro rfl
    exact kept_resolve json

end Json
end CredentialCeremony
