import CredentialCeremony.Json.Printer
import CredentialCeremony.Schema.Basic

set_option autoImplicit false

/-!
# Writing documents

`Schema.toJson` is the tree that a value stands as in a document, `Schema.text` its JSON text. The
members of a record are written in the order of its fields; an absent field is left out.
-/

namespace CredentialCeremony

mutual

/-- A value as a JSON tree. -/
def Schema.toJson : {α : Type} → Schema α → α → Json
  | _, .string, s => .string s
  | _, .bytes, bytes => .string (Base64.encode bytes)
  | _, .flag, b => .bool b
  | _, .word, n => .number (.integer n.toNat)
  | _, .integer, n => .number (.integer n.toInt)
  | _, .timeout, value =>
    match value with
    | none => .null
    | some n => .number (.integer n.toNat)
  | _, .spelled s, a => .string (s.spell a)
  | _, .choice c, a => .string (c.nameOf a)
  | _, .lenient c _, a => .string (c.nameOf a)
  | _, .lenientOption c, value =>
    match value with
    | none => .null
    | some a => .string (c.nameOf a)
  | _, .nullable s, value =>
    match value with
    | none => .null
    | some a => s.toJson a
  | _, .list s, items => .array (items.map s.toJson)
  | _, .tolerant s, items => .array (items.map s.toJson)
  | _, .listOrNull s, items => s.toJson items
  | _, .dictionary, d => .object (d.entries.map fun entry => (entry.1, .string entry.2))
  | _, .record fields layout, a => .object (fields.members (layout.parts a))
  | _, .extensible name known, e =>
    match e.known with
    | none => .object e.others.entries
    | some a => .object ((name, known.toJson a) :: e.others.entries)

/-- The members that are written for the fields of a record. -/
def Fields.members : {τ σ : Type} → Fields τ σ → τ → List (String × Json)
  | _, _, .nil, _ => []
  | _, _, .cons name _ schema presence rest, (a, others) =>
    if presence.omits a then rest.members others
    else (name, schema.toJson a) :: rest.members others

end

/-- The JSON text of a value. -/
def Schema.text {α : Type} (s : Schema α) (a : α) : String := (s.toJson a).text

end CredentialCeremony
