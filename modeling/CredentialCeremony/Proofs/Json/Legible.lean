import CredentialCeremony.Proofs.Json.Members
import CredentialCeremony.Proofs.Reading.Enclosed
import CredentialCeremony.Proofs.Schema.Tolerance

set_option autoImplicit false

/-!
# Legible objects

A tree of an object is made of trees of its members: it can hold the object exactly if it can hold
the value of each member and if the names are legible (`Json.isTreeOf_iff_of_objectWith`).
-/

namespace CredentialCeremony

open Reader Grammar

/-- Whatever follows it, a value spells what it spells by itself. -/
theorem Json.spelled_append_iff {json : Json} {value behind rest : Bytes} (hvalue : Value value [])
    (hbehind : Stops behind) :
    json.Spelled (value ++ behind) rest ↔ json.Spelled value [] ∧ rest = behind := by
  have hexact (text rest : Bytes) : Reader.value json.depth ⟨text, []⟩ = .ok json ⟨rest, []⟩ ↔
      json.Spelled text rest := by
    rw [value_exact]
    constructor
    · rintro ⟨j, h, -, hpure⟩
      obtain ⟨rfl, -⟩ := pure_eq_ok_iff.1 hpure
      exact h
    · intro h
      exact ⟨json, h, Nat.le_refl _, rfl⟩
  have hall (j : Json) (c : Cursor) (h : Reader.value json.depth ⟨value, []⟩ = .ok j c) :
      c.rest = [] := ((value_exact _).sound _ _ _ h).unique hvalue
  have happart {behind rest : Bytes} (hbehind : Stops behind) :
      Reader.value json.depth ⟨value ++ behind, []⟩ = .ok json ⟨rest, []⟩ ↔
        apart (Reader.value json.depth) value [] = .ok json [] ∧ rest = behind :=
    (value_encloses json.depth value hvalue).eq_ok_iff hbehind hall
  have hwhole := @happart [] [] stops_nil
  rw [List.append_nil, hexact, and_iff_left rfl] at hwhole
  rw [← hexact, happart hbehind, hwhole]

/-- What fills the text of a value is spelled by all of it. -/
theorem Json.Fills.spelled {json : Json} {value : Bytes} (h : json.Fills value)
    (hvalue : Value value []) : json.Spelled value [] := by
  obtain ⟨rest, hspelled, -⟩ := h
  obtain rfl : rest = [] := hspelled.grammar.unique hvalue
  exact hspelled

/-- The names of the members are those, and their values are texts of the trees. -/
def MembersOf (members : List (Option String × Bytes)) (trees : List (String × Json)) : Prop :=
  List.Forall₂ (fun member tree => member.1 = some tree.1 ∧ tree.2.Spelled member.2 [])
    members trees

/-- The members of an object spell those of a tree exactly if they do one by one. -/
theorem Json.membersSpelled_iff {members : List (Option String × Bytes)}
    {trees : List (String × Json)} {first : Bool} {text rest rest' : Bytes}
    (h : MembersWith members first text rest) :
    Json.MembersSpelled trees first text rest' ↔ MembersOf members trees ∧ rest' = rest := by
  induction members generalizing first text trees with
  | nil =>
    have hbrace : Next '\x7d' text rest := h
    cases trees with
    | nil =>
      constructor
      · intro hspelled
        exact ⟨.nil, (Next.unique hspelled hbrace).2⟩
      · rintro ⟨-, rfl⟩
        exact hbrace
    | cons tree trees =>
      refine iff_of_false ?_ (by simp [MembersOf])
      rintro ⟨start, quoted, _, _, _, hlead, hmark, -⟩
      exact not_brace_of_lead hlead hmark hbrace
  | cons member members ih =>
    obtain ⟨given, value⟩ := member
    obtain ⟨start, quoted, colon, item, behind, hlead, hmark, ⟨hescaped, hname⟩, hcolon, hitem,
      hvalue, hothers⟩ := h
    have hbehind := hothers.stops
    cases trees with
    | nil =>
      refine iff_of_false (fun hbrace => not_brace_of_lead hlead hmark hbrace) ?_
      rintro ⟨hmembers, -⟩
      cases hmembers
    | cons tree trees =>
      obtain ⟨name, json⟩ := tree
      rw [MembersOf, List.forall₂_cons]
      constructor
      · rintro ⟨start', quoted', colon', item', behind', hlead', hmark', hchars, hcolon',
          hspelled, hmore⟩
        obtain rfl := hlead'.unique hlead
        obtain ⟨-, rfl⟩ := hmark'.unique hmark
        obtain rfl := hchars.escaped.unique hescaped
        obtain ⟨-, rfl⟩ := hcolon'.unique hcolon
        rw [← Json.spelled_unspaced_iff, hitem, Json.spelled_append_iff hvalue hbehind] at hspelled
        obtain ⟨hspelled, rfl⟩ := hspelled
        obtain ⟨hmembers, rfl⟩ := (ih hothers).1 hmore
        exact ⟨⟨⟨(hname name).2 hchars, hspelled⟩, hmembers⟩, rfl⟩
      · rintro ⟨⟨⟨hgiven, hspelled⟩, hmembers⟩, rfl⟩
        refine ⟨start, quoted, colon, item, behind, hlead, hmark, (hname name).1 hgiven, hcolon, ?_,
          (ih hothers).2 ⟨hmembers, rfl⟩⟩
        rw [← Json.spelled_unspaced_iff, hitem, Json.spelled_append_iff hvalue hbehind]
        exact ⟨hspelled, rfl⟩

/-- An object is a tree exactly if its names are legible and its values are trees. -/
theorem Json.fills_iff_of_objectWith {members : List (Option String × Bytes)} {text : Bytes}
    {json : Json} (h : ObjectWith members text) :
    json.Fills text ↔ ∃ trees, json = .object trees ∧ MembersOf members trees := by
  obtain ⟨inner, rest, hopen, hmembers, hspaces⟩ := h
  constructor
  · rintro ⟨rest', hspelled, -⟩
    obtain ⟨trees, rfl⟩ := Json.opens_brace_iff.1 (hspelled.opens_of_next hopen)
    obtain ⟨inner', hopen', hspelled⟩ := hspelled
    obtain ⟨-, rfl⟩ := hopen'.unique hopen
    exact ⟨trees, rfl, ((Json.membersSpelled_iff hmembers).1 hspelled).1⟩
  · rintro ⟨trees, rfl, htrees⟩
    exact ⟨rest, ⟨inner, hopen, (Json.membersSpelled_iff hmembers).2 ⟨htrees, rfl⟩⟩,
      unspaced_eq_nil_iff.2 hspaces⟩

/-- So it is held by a tree if its values are, and are nested less deep. -/
theorem Json.isTreeOf_iff_of_objectWith {members : List (Option String × Bytes)} {text : Bytes}
    {json : Json} (h : ObjectWith members text) :
    json.IsTreeOf text ↔ ∃ trees, json = .object trees ∧ MembersOf members trees ∧
      ∀ tree ∈ trees, tree.2.depth < maxDepth := by
  rw [Json.IsTreeOf, Json.fills_iff_of_objectWith h]
  constructor
  · rintro ⟨⟨trees, rfl, htrees⟩, hdepth⟩
    refine ⟨trees, rfl, htrees, fun tree htree => ?_⟩
    exact Nat.lt_succ_of_le (membersDepth_le_iff.1 (Nat.le_of_succ_le_succ hdepth) tree htree)
  · rintro ⟨trees, rfl, htrees, hdepth⟩
    refine ⟨⟨trees, rfl, htrees⟩, Nat.succ_le_succ (membersDepth_le_iff.2 fun tree htree => ?_)⟩
    exact Nat.le_of_lt_succ (hdepth tree htree)

theorem MembersOf.ne {members : List (Option String × Bytes)} {trees : List (String × Json)}
    {name : String} (h : MembersOf members trees)
    (hne : ∀ member ∈ members, member.1 ≠ some name) : ∀ tree ∈ trees, tree.1 ≠ name := by
  induction h with
  | nil => exact nofun
  | cons hmember _ ih =>
    rw [List.forall_mem_cons] at hne ⊢
    exact ⟨fun htree => hne.1 (htree ▸ hmember.1), ih hne.2⟩

/-- The members of a tree fall into those of two parts. -/
theorem membersOf_append_iff {front back : List (Option String × Bytes)}
    {trees : List (String × Json)} : MembersOf (front ++ back) trees ↔
      ∃ front' back', trees = front' ++ back' ∧ MembersOf front front' ∧ MembersOf back back' := by
  constructor
  · intro h
    exact ⟨_, _, (List.take_append_drop front.length trees).symm,
      (List.forall₂_take_append _ _ _ h.flip).flip, (List.forall₂_drop_append _ _ _ h.flip).flip⟩
  · rintro ⟨front', back', rfl, hfront, hback⟩
    exact List.rel_append hfront hback

end CredentialCeremony
