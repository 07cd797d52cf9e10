import CredentialCeremony.Reading.Container
import CredentialCeremony.Schema.Basic
import CredentialCeremony.Schema.Timeout

set_option autoImplicit false

/-!
# Reading documents through a tree

`Schema.extract` reads a value out of a JSON tree. Here every value has an end before it is looked
at, so a lenient choice that cannot be read affects nothing but itself.

`Schema.readValue` reads a text as a tree first, resolves the repeated names in it, and then reads
the value out of that.
-/

namespace CredentialCeremony

namespace Extractor

/-- Refuses the document without a message. -/
def fail {α : Type} : Extractor α := throw .malformed

/-- A result that needs no log. -/
def ofExcept {α : Type} : Except ReadError α → Extractor α
  | .ok a => pure a
  | .error e => throw e

/-- What the reader answers, or nothing if it fails. -/
def attempt {α : Type} (x : Extractor α) : Extractor (Option α) := fun warnings =>
  match x warnings with
  | .ok a warnings => .ok (some a) warnings
  | .error _ warnings => .ok none warnings

/-- Logs a warning. -/
def warn (w : TimeoutWarning) : Extractor Unit := fun warnings => .ok () (warnings ++ [w])

/-- The readable elements of a list. -/
def readable {α : Type} (element : Json → Extractor α) : List Json → Extractor (List α)
  | [] => return []
  | json :: rest => do
    let a ← attempt (element json)
    let others ← readable element rest
    return a.toList ++ others

/-- The elements of a list, all of which have to be readable. -/
def all {α : Type} (element : Json → Extractor α) : List Json → Extractor (List α)
  | [] => return []
  | json :: rest => do
    let a ← element json
    let others ← all element rest
    return a :: others

/-- A byte value. -/
def byte : Json → Extractor UInt8
  | .number (.integer n) => if 0 ≤ n ∧ n < 256 then return UInt8.ofNat n.toNat else fail
  | _ => fail

/-- A string. -/
def string : Json → Extractor String
  | .string s => return s
  | _ => fail

/-- A binary value: text in base 64, or an array of byte values. -/
def bytes : Json → Extractor Bytes
  | .string s =>
    match Bytes.ofText? s with
    | some b => return b
    | none => throw (.notBase64 s)
  | .array items => all byte items
  | _ => fail

/-- A whole number of 32 bits. -/
def word : Json → Extractor UInt32
  | .number (.integer n) => if 0 ≤ n ∧ n < 0x100000000 then return UInt32.ofNat n.toNat else fail
  | _ => fail

/-- A whole number of 64 bits with a sign. -/
def integer : Json → Extractor Int64
  | .number (.integer n) => if -0x8000000000000000 ≤ n ∧ n < 0x8000000000000000 then return Int64.ofInt n else fail
  | _ => fail

/-- A timeout; one that cannot be read is absent and logged. -/
def timeout (json : Json) : Extractor (Option UInt32) :=
  match Timeout.ofJson json with
  | .ok value => return value
  | .error w => do warn w; return none

/-- A choice: its name, or an object whose one member has that name and is null. -/
def choice {α : Type} (c : Choice α) : Json → Extractor α
  | .string name => ofExcept (c.ofName name)
  | .object [(name, json)] => do
    let a ← ofExcept (c.ofName name)
    if json = .null then return a else fail
  | _ => fail

/-- The members of an object of strings. -/
def strings : List (String × Json) → Dictionary String → Extractor (Dictionary String)
  | [], d => return d
  | (name, json) :: rest, d => do
    let s ← string json
    strings rest (d.insert name s)

end Extractor

mutual

/-- Reads a value out of a tree. -/
def Schema.extract : {α : Type} → Schema α → Json → Extractor α
  | _, .string, json => Extractor.string json
  | _, .bytes, json => Extractor.bytes json
  | _, .flag, json =>
    match json with
    | .bool b => return b
    | _ => Extractor.fail
  | _, .word, json => Extractor.word json
  | _, .integer, json => Extractor.integer json
  | _, .timeout, json => Extractor.timeout json
  | _, .spelled s, json => do
    let text ← Extractor.string json
    Extractor.ofExcept (s.parse text)
  | _, .choice c, json => Extractor.choice c json
  | _, .lenient c default, json => do
    return (← Extractor.attempt (Extractor.choice c json)).getD default
  | _, .lenientOption c, json =>
    match json with
    | .null => return none
    | json => Extractor.attempt (Extractor.choice c json)
  | _, .nullable s, json =>
    match json with
    | .null => return none
    | json => do return some (← s.extract json)
  | _, .list s, json =>
    match json with
    | .array items => Extractor.all s.extract items
    | _ => Extractor.fail
  | _, .tolerant s, json =>
    match json with
    | .array items => Extractor.readable s.extract items
    | _ => Extractor.fail
  | _, .listOrNull s, json =>
    match json with
    | .null => return []
    | json => s.extract json
  | _, .dictionary, json =>
    match json with
    | .object members => Extractor.strings members .empty
    | _ => Extractor.fail
  | _, .record fields layout, json =>
    match json with
    | .object members => do
      let read ← members.foldlM (fun read member => fields.extractMember member.1 member.2 read)
        fields.unread
      return layout.build (← Extractor.ofExcept (fields.complete read))
    | .array items => do return layout.build (← fields.extractElements items)
    | _ => Extractor.fail
  | _, .extensible name known, json =>
    match json with
    | .object members => do
      let (value, others) ← members.foldlM
        (fun (read : Option (Option _) × List (String × Json)) (member : String × Json) =>
          if member.1 = name then
            match read.1, member.2 with
            | some _, _ => throw (.duplicateField name)
            -- null counts as given, so that a second member is a repeat
            | none, .null => return (some none, read.2)
            | none, json => do return (some (some (← known.extract json)), read.2)
          else return (read.1, member :: read.2))
        (none, [])
      return ⟨value.getD none, .ofList (Json.resolveMembers others.reverse)⟩
    | _ => Extractor.fail

/-- Takes one member of a record: a known one is read unless it has been before, an unknown one is
passed over. -/
def Fields.extractMember :
    {τ σ : Type} → Fields τ σ → (name : String) → Json → σ → Extractor σ
  | _, _, .nil, _, _, read => return read
  | _, _, .cons name aliases schema _ rest, given, json, (read, others) =>
    if given = name ∨ given ∈ aliases then
      match read with
      | some _ => throw (.duplicateField name)
      | none => do return (some (← schema.extract json), others)
    else do return (read, ← rest.extractMember given json others)

/-- Takes the fields of a record from an array in order. -/
def Fields.extractElements : {τ σ : Type} → Fields τ σ → List Json → Extractor τ
  | _, _, .nil, items => if items.isEmpty then return () else Extractor.fail
  | _, _, .cons _ _ schema presence rest, items =>
    match items with
    | json :: items => do
      let a ← schema.extract json
      return (a, ← rest.extractElements items)
    | [] =>
      match presence.absent?, rest.absent? with
      | some a, some others => return (a, others)
      | _, _ => Extractor.fail

end

/-- Reads a text as a tree, resolves the repeated names in it, and reads a value out of that. -/
def Schema.readValue {α : Type} (s : Schema α) (text : Bytes) : Reading α :=
  let tree := Reader.run (Reader.value Reader.maxDepth) text
  match tree.outcome with
  | .error e => ⟨.error e, tree.warnings⟩
  | .ok json =>
    match s.extract json.resolve tree.warnings with
    | .ok a warnings => ⟨.ok a, warnings⟩
    | .error e warnings => ⟨.error e, warnings⟩

end CredentialCeremony
