import CredentialCeremony.Binary.Base64
import CredentialCeremony.Json.Basic
import CredentialCeremony.Reading.Error

set_option autoImplicit false

/-!
# Descriptions of documents

A `Schema α` describes how values of the type `α` stand in a JSON document. One description serves
for reading a text directly, for reading a tree that has been read before, and for writing.

`Fields τ σ` describes the members of a record: `τ` is the product of the types of the fields, and
`σ` holds for each field the value that has been read so far, if any.

What is particular to these documents:
* a *choice* is a name out of a list, or an object whose one member has that name and the value
  null;
* a *lenient* choice takes a default instead of failing;
* a *tolerant* list drops the elements that cannot be read;
* an *extensible* record knows one member and keeps all others as they are.
-/

namespace CredentialCeremony

/-- Named alternatives. The names are listed in the order in which messages list them; a name that
is only read, never written, stands there too. -/
structure Choice (α : Type) where
  names : List (String × α)
  nameOf : α → String
  fallback : Option α
  nameOf_mem : ∀ a, names.lookup (nameOf a) = some a

/-- The alternative of a name. -/
def Choice.ofName {α : Type} (c : Choice α) (name : String) : Except ReadError α :=
  match c.names.lookup name with
  | some a => .ok a
  | none =>
    match c.fallback with
    | some a => .ok a
    | none => .error (.unknownVariant name (c.names.map Prod.fst))

@[simp] theorem Choice.ofName_nameOf {α : Type} (c : Choice α) (a : α) :
    c.ofName (c.nameOf a) = .ok a := by
  simp [Choice.ofName, c.nameOf_mem a]

/-- Values that are written as a text with rules of its own. -/
structure Spelling (α : Type) where
  parse : String → Except ReadError α
  spell : α → String

/-- A record with one known optional member, which is described elsewhere, and any further members,
kept with their values. -/
structure Extensible (κ : Type) where
  known : Option κ
  others : Dictionary Json
  deriving DecidableEq

instance {κ : Type} : Inhabited (Extensible κ) := ⟨⟨none, .empty⟩⟩

/-- What becomes of a field that a record does not mention. -/
inductive Presence : Type → Type 1 where
  /-- The record is refused. -/
  | required {α : Type} : Presence α
  /-- The field has this value; it is always written. -/
  | defaulted {α : Type} (value : α) : Presence α
  /-- The field is absent; an absent field is not written. -/
  | optional {α : Type} : Presence (Option α)

/-- The value of a field that is not mentioned. -/
def Presence.absent? : {α : Type} → Presence α → Option α
  | _, .required => none
  | _, .defaulted value => some value
  | _, .optional => some none

/-- Whether a value is left out when a record is written. -/
def Presence.omits : {α : Type} → Presence α → α → Bool
  | _, .required, _ => false
  | _, .defaulted _, _ => false
  | _, .optional, value => value.isNone

/-- A value that is left out is the one that is read when the field is not mentioned. -/
theorem Presence.absent?_of_omits {α : Type} {p : Presence α} {a : α} (h : p.omits a = true) :
    p.absent? = some a := by
  cases p with
  | required => simp [Presence.omits] at h
  | defaulted => simp [Presence.omits] at h
  | optional =>
    simp only [Presence.omits, Option.isNone_iff_eq_none] at h
    simp [Presence.absent?, h]

/-- A record type seen as the product of its fields: the two hold the same. -/
structure Layout (τ α : Type) where
  build : τ → α
  parts : α → τ
  build_parts : ∀ a, build (parts a) = a := by intros; rfl
  parts_build : ∀ fields, parts (build fields) = fields := by intros; rfl

mutual

/-- How values of a type stand in a document. -/
inductive Schema : Type → Type 1 where
  /-- A string. -/
  | string : Schema String
  /-- Base 64 of either alphabet, or an array of byte values. -/
  | bytes : Schema Bytes
  /-- `true` or `false`. -/
  | flag : Schema Bool
  /-- A whole number of 32 bits. -/
  | word : Schema UInt32
  /-- A whole number of 64 bits with a sign. -/
  | integer : Schema Int64
  /-- A number of milliseconds, leniently. -/
  | timeout : Schema (Option UInt32)
  /-- A string with rules of its own. -/
  | spelled {α : Type} (s : Spelling α) : Schema α
  /-- One of several names. -/
  | choice {α : Type} (c : Choice α) : Schema α
  /-- One of several names, or else the default. -/
  | lenient {α : Type} (c : Choice α) (default : α) : Schema α
  /-- One of several names, or else absent. -/
  | lenientOption {α : Type} (c : Choice α) : Schema (Option α)
  /-- Null for an absent value. -/
  | nullable {α : Type} (s : Schema α) : Schema (Option α)
  /-- An array, all of whose elements have to be readable. -/
  | list {α : Type} (s : Schema α) : Schema (List α)
  /-- An array, of which the unreadable elements are dropped. -/
  | tolerant {α : Type} (s : Schema α) : Schema (List α)
  /-- Null for the empty list. -/
  | listOrNull {α : Type} (s : Schema (List α)) : Schema (List α)
  /-- An object with strings for values. -/
  | dictionary : Schema (Dictionary String)
  /-- An object, or an array of the fields in order. -/
  | record {τ σ α : Type} (fields : Fields τ σ) (layout : Layout τ α) : Schema α
  /-- An object with one known member and any others. -/
  | extensible {κ : Type} (name : String) (known : Schema κ) : Schema (Extensible κ)

/-- The fields of a record in order, each with its name and other names that are read for it. -/
inductive Fields : Type → Type → Type 1 where
  | nil : Fields Unit Unit
  | cons {α τ σ : Type} (name : String) (aliases : List String) (schema : Schema α)
      (presence : Presence α) (rest : Fields τ σ) : Fields (α × τ) (Option α × σ)

end

namespace Fields

/-- No field has been read. -/
def unread : {τ σ : Type} → Fields τ σ → σ
  | _, _, .nil => ()
  | _, _, .cons _ _ _ _ rest => (none, rest.unread)

/-- The record when its last member has been read: the first required field without a value is
reported. -/
def complete : {τ σ : Type} → Fields τ σ → σ → Except ReadError τ
  | _, _, .nil, _ => .ok ()
  | _, _, .cons name _ _ presence rest, (read, others) =>
    -- a field that has been read never takes its default
    match read <|> presence.absent? with
    | none => .error (.missingField name)
    | some a => (rest.complete others).map fun others => (a, others)

/-- The values of the fields that an array of fewer elements leaves out. -/
def absent? : {τ σ : Type} → Fields τ σ → Option τ
  | _, _, .nil => some ()
  | _, _, .cons _ _ _ presence rest => do return (← presence.absent?, ← rest.absent?)

/-- The names that are written, in order. -/
def names : {τ σ : Type} → Fields τ σ → List String
  | _, _, .nil => []
  | _, _, .cons name _ _ _ rest => name :: rest.names

/-- A required field under its name only. -/
def required {α τ σ : Type} (name : String) (schema : Schema α) (rest : Fields τ σ) :
    Fields (α × τ) (Option α × σ) :=
  .cons name [] schema .required rest

/-- A field that is absent unless given, and not written when it is absent. -/
def optional {α τ σ : Type} (name : String) (schema : Schema (Option α)) (rest : Fields τ σ) :
    Fields (Option α × τ) (Option (Option α) × σ) :=
  .cons name [] schema .optional rest

/-- A field with a default. -/
def defaulted {α τ σ : Type} (name : String) (schema : Schema α) (value : α) (rest : Fields τ σ) :
    Fields (α × τ) (Option α × σ) :=
  .cons name [] schema (.defaulted value) rest

end Fields
end CredentialCeremony
