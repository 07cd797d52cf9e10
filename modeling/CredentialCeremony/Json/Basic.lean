import CredentialCeremony.Number.Double

set_option autoImplicit false

/-!
# JSON values

A JSON value keeps the members of an object in the order in which they were given, and may hold
several members of one name. `Json.resolve` removes the repeats at every level: a name keeps the
place of its first member and the value of its last one.

`Dictionary` is an ordered map with distinct names; `Dictionary.insert` follows the same rule.
Main statements: `Dictionary.get?_insert` and `Dictionary.keys_insert`.
-/

namespace CredentialCeremony

/-- A number: a whole number that fits 64 bits with or without a sign, or a double. -/
inductive Number where
  | integer (value : Int)
  | double (value : Double)
  deriving DecidableEq, Repr, Inhabited

/-- A JSON value, with the members of an object in the order given. -/
inductive Json where
  | null
  | bool (value : Bool)
  | number (value : Number)
  | string (value : String)
  | array (items : List Json)
  | object (members : List (String × Json))
  deriving Repr, Inhabited

namespace Json

mutual

/-- Decides whether two values are equal. -/
def decEq : (a b : Json) → Decidable (a = b)
  | .null, .null => .isTrue rfl
  | .bool a, .bool b => if h : a = b then .isTrue (by rw [h]) else .isFalse (by simpa using h)
  | .number a, .number b => if h : a = b then .isTrue (by rw [h]) else .isFalse (by simpa using h)
  | .string a, .string b => if h : a = b then .isTrue (by rw [h]) else .isFalse (by simpa using h)
  | .array a, .array b =>
    match decEqItems a b with
    | .isTrue h => .isTrue (by rw [h])
    | .isFalse h => .isFalse (by simpa using h)
  | .object a, .object b =>
    match decEqMembers a b with
    | .isTrue h => .isTrue (by rw [h])
    | .isFalse h => .isFalse (by simpa using h)
  | .null, .bool _ | .null, .number _ | .null, .string _ | .null, .array _ | .null, .object _
  | .bool _, .null | .bool _, .number _ | .bool _, .string _ | .bool _, .array _
  | .bool _, .object _ | .number _, .null | .number _, .bool _ | .number _, .string _
  | .number _, .array _ | .number _, .object _ | .string _, .null | .string _, .bool _
  | .string _, .number _ | .string _, .array _ | .string _, .object _ | .array _, .null
  | .array _, .bool _ | .array _, .number _ | .array _, .string _ | .array _, .object _
  | .object _, .null | .object _, .bool _ | .object _, .number _ | .object _, .string _
  | .object _, .array _ => .isFalse (by simp)

/-- Decides whether two lists of values are equal. -/
def decEqItems : (a b : List Json) → Decidable (a = b)
  | [], [] => .isTrue rfl
  | [], _ :: _ => .isFalse (by simp)
  | _ :: _, [] => .isFalse (by simp)
  | a :: as, b :: bs =>
    match decEq a b, decEqItems as bs with
    | .isTrue h, .isTrue hs => .isTrue (by rw [h, hs])
    | .isFalse h, _ => .isFalse (by simp [h])
    | _, .isFalse hs => .isFalse (by simp [hs])

/-- Decides whether two lists of members are equal. -/
def decEqMembers : (a b : List (String × Json)) → Decidable (a = b)
  | [], [] => .isTrue rfl
  | [], _ :: _ => .isFalse (by simp)
  | _ :: _, [] => .isFalse (by simp)
  | (k, a) :: as, (l, b) :: bs =>
    match decEq a b, decEqMembers as bs with
    | .isTrue h, .isTrue hs =>
      if hk : k = l then .isTrue (by rw [h, hs, hk]) else .isFalse (by simp [hk])
    | .isFalse h, _ => .isFalse (by simp [h])
    | _, .isFalse hs => .isFalse (by simp [hs])

end

instance : DecidableEq Json := decEq

/-- What holds of a value whenever it holds of all values in it holds of every value. -/
@[induction_eliminator]
theorem induction {motive : Json → Prop} (null : motive .null)
    (bool : ∀ value, motive (.bool value)) (number : ∀ value, motive (.number value))
    (string : ∀ value, motive (.string value))
    (array : ∀ items, (∀ json ∈ items, motive json) → motive (.array items))
    (object : ∀ members, (∀ member ∈ members, motive member.2) → motive (.object members))
    (json : Json) : motive json :=
  -- items and members have a motive of their own, since a value is nested in lists and pairs
  @Json.rec motive (fun items => ∀ json ∈ items, motive json)
    (fun members => ∀ member ∈ members, motive member.2) (fun member => motive member.2)
    null bool number string array object
    (List.forall_mem_nil _) (fun _ _ hjson hitems => List.forall_mem_cons.2 ⟨hjson, hitems⟩)
    (List.forall_mem_nil _) (fun _ _ hmember hmembers => List.forall_mem_cons.2 ⟨hmember, hmembers⟩)
    (fun _ _ hvalue => hvalue) json

end Json

/-- Sets the value of a name in a list of entries: the first entry of that name keeps its place and
takes the value; a new name goes to the end. -/
def setEntry {β : Type} (key : String) (value : β) : List (String × β) → List (String × β)
  | [] => [(key, value)]
  | entry :: rest =>
    if entry.1 = key then (key, value) :: rest else entry :: setEntry key value rest

theorem mem_keys_setEntry {β : Type} {key other : String} {value : β}
    {entries : List (String × β)} :
    other ∈ (setEntry key value entries).map Prod.fst ↔
      other = key ∨ other ∈ entries.map Prod.fst := by
  induction entries with
  | nil => simp [setEntry]
  | cons entry rest ih =>
    by_cases h : entry.1 = key
    · simp [setEntry, h]
    · simp only [setEntry, h, if_false, List.map_cons, List.mem_cons, ih]
      grind

/-- Setting a name keeps the names distinct. -/
theorem nodup_setEntry {β : Type} {key : String} {value : β} {entries : List (String × β)}
    (h : (entries.map Prod.fst).Nodup) : ((setEntry key value entries).map Prod.fst).Nodup := by
  induction entries with
  | nil => simp [setEntry]
  | cons entry rest ih =>
    rw [List.map_cons, List.nodup_cons] at h
    by_cases hk : entry.1 = key
    · simp only [setEntry, hk, if_true, List.map_cons, List.nodup_cons]
      exact ⟨hk ▸ h.1, h.2⟩
    · simp only [setEntry, hk, if_false, List.map_cons, List.nodup_cons, mem_keys_setEntry]
      exact ⟨fun hm => hm.elim id h.1, ih h.2⟩

/-- An ordered map from distinct names to values. -/
structure Dictionary (β : Type) where
  entries : List (String × β)
  nodup : (entries.map Prod.fst).Nodup

namespace Dictionary

variable {β : Type}

instance [DecidableEq β] : DecidableEq (Dictionary β) := fun a b =>
  if h : a.entries = b.entries then
    .isTrue (by cases a; cases b; cases h; rfl)
  else .isFalse (fun hab => h (congrArg entries hab))

/-- The map without entries. -/
def empty : Dictionary β := ⟨[], by simp⟩

instance : Inhabited (Dictionary β) := ⟨empty⟩

/-- Sets the value of a name, which keeps its place if it has one and goes to the end if not. -/
def insert (d : Dictionary β) (key : String) (value : β) : Dictionary β :=
  ⟨setEntry key value d.entries, nodup_setEntry d.nodup⟩

/-- The map that a sequence of members makes: a repeated name keeps its first place and takes its
last value. -/
def ofList (members : List (String × β)) : Dictionary β :=
  members.foldl (fun d member => d.insert member.1 member.2) empty

/-- The names in order. -/
def keys (d : Dictionary β) : List String := d.entries.map Prod.fst

/-- The value of a name. -/
def get? (d : Dictionary β) (key : String) : Option β := d.entries.lookup key

theorem keys_insert {d : Dictionary β} {key : String} {value : β} :
    (d.insert key value).keys = if key ∈ d.keys then d.keys else d.keys ++ [key] := by
  have go (entries : List (String × β)) : (setEntry key value entries).map Prod.fst =
      if key ∈ entries.map Prod.fst then entries.map Prod.fst
      else entries.map Prod.fst ++ [key] := by
    induction entries with
    | nil => rfl
    | cons entry rest ih =>
      by_cases hk : entry.1 = key
      · simp [setEntry, hk]
      · have hk' : ¬ key = entry.1 := fun h => hk h.symm
        simp only [setEntry, hk, if_false, List.map_cons, ih, List.mem_cons, hk', false_or]
        split <;> simp
  exact go d.entries

theorem get?_insert {d : Dictionary β} {key other : String} {value : β} :
    (d.insert key value).get? other = if other = key then some value else d.get? other := by
  have go (entries : List (String × β)) : (setEntry key value entries).lookup other =
      if other = key then some value else entries.lookup other := by
    induction entries with
    | nil => simp only [setEntry, List.lookup_cons, List.lookup_nil]; grind
    | cons entry rest ih =>
      obtain ⟨name, current⟩ := entry
      by_cases hk : name = key
      · simp only [setEntry, hk, if_true, List.lookup_cons]
        grind
      · simp only [setEntry, hk, if_false, List.lookup_cons, ih]
        grind
  exact go d.entries

end Dictionary

namespace Json

mutual

/-- The value with the repeated names of every object resolved: the first place, the last value. -/
def resolve : Json → Json
  | .array items => .array (resolveItems items)
  | .object members => .object (Dictionary.ofList (resolveMembers members)).entries
  | json => json

/-- The elements of a list, each resolved. -/
def resolveItems : List Json → List Json
  | [] => []
  | json :: rest => json.resolve :: resolveItems rest

/-- The members of an object, the value of each resolved. -/
def resolveMembers : List (String × Json) → List (String × Json)
  | [] => []
  | (name, json) :: rest => (name, json.resolve) :: resolveMembers rest

end

@[simp] theorem resolveItems_eq_map (items : List Json) :
    resolveItems items = items.map resolve := by
  induction items with
  | nil => rfl
  | cons json rest ih => simp [resolveItems, ih]

@[simp] theorem resolveMembers_eq_map (members : List (String × Json)) :
    resolveMembers members = members.map fun member => (member.1, member.2.resolve) := by
  induction members with
  | nil => rfl
  | cons member rest ih => simp [resolveMembers, ih]

end Json
end CredentialCeremony
