import CredentialCeremony.Reading.Skip
import CredentialCeremony.Schema.Buffered

set_option autoImplicit false

/-!
# Reading documents off a text

`Schema.read` reads a value off the front of a text without making a tree of it, so a fault is met
where it stands: members are taken in the order of the text, and the first fault of the text counts.

A lenient choice that fails leaves the reader where it failed, and the record around it reads on
from there. A string has been taken by then, so an unknown name does no harm. A number or a word of
the format has not been taken at all, and the record then misses its comma. An object is taken up
to its name, or up to the value behind the name, and the record reads on inside it.

This is what `Resumption.inPlace` says, and how documents are read. With `Resumption.behindValue` a
failure is passed over only if it left the reader behind the value of the field: such a reader
never goes on inside a value, so the two tell apart the texts that are read amiss.

`depth` is how many further arrays and objects may be opened.
-/

namespace CredentialCeremony

/-- Where reading goes on after a tolerant field that cannot be read. -/
inductive Resumption where
  /-- Where the failure left the reader. -/
  | inPlace
  /-- Behind the value of the field; a failure anywhere else is one of the document. -/
  | behindValue
  deriving DecidableEq, Repr

namespace Reader

/-- What a reader answers, whether it fails or not, if the failure may be passed over. -/
def tolerate {α : Type} (mode : Resumption) (r : Reader α) : Reader (Except ReadError α) :=
  match mode with
  | .inPlace => attempt r
  | .behindValue => fun c =>
    match r c with
    | .ok a c => .ok (.ok a) c
    | .error e failed =>
      match skip c with
      | .ok () passed =>
        if failed.rest = passed.rest then .ok (.error e) failed else .error e failed
      | .error _ _ => .error e failed

/-- Reads what `body` reads at the next depth, if there is one. -/
def nested {α : Type} (depth : Nat) (body : Nat → Reader α) : Reader α :=
  match depth with
  | 0 => fail
  | depth + 1 => do
    advance
    body depth

/-- A string. -/
def string : Reader String := do
  match ← peek with
  | some '"' => do advance; stringBody
  | _ => fail

/-- `true` or `false`. -/
def flag : Reader Bool := do
  match ← peek with
  | some 't' => do advance; word "rue"; return true
  | some 'f' => do advance; word "alse"; return false
  | _ => fail

/-- A number. -/
def number : Reader Number := do
  match ← peek with
  | some '-' => do advance; numeral true
  | some c => if c.isDigit then numeral false else fail
  | none => fail

/-- A value that a tree would give, where the text holds a number. -/
def ofNumber {α : Type} (x : Json → Extractor α) : Reader α := do
  let n ← number
  extract (x (.number n))

/-- An array of what `element` reads. -/
def array {α : Type} (depth : Nat) (element : Nat → Reader α) : Reader (List α) := do
  match ← peek with
  | some '[' =>
    nested depth fun depth => do
      let items ← elements (element depth)
      closeArray
      return items
  | _ => fail

/-- A binary value: text in base 64, or an array of byte values. -/
def bytes (depth : Nat) : Reader Bytes := do
  match ← peek with
  | some '"' => do
    advance
    let s ← stringBody
    extract (Extractor.bytes (.string s))
  | some '[' => array depth fun _ => ofNumber Extractor.byte
  | _ => fail

/-- A timeout. Whatever stands in its place is read as a tree; if that fails, the timeout is
absent. -/
def timeout (mode : Resumption) (depth : Nat) : Reader (Option UInt32) := do
  match ← tolerate mode (value depth) with
  | .ok json => extract (Extractor.timeout json)
  | .error _ => do
    warn .notAScalar
    return none

/-- The scalar that stands where something else was expected is taken; an array, an object or
anything else is not. -/
def unexpected {α : Type} : Reader α := do
  match ← peek with
  | none => fail
  | some c =>
    match scalar? c with
    | some scalar => do
      let _ ← scalar
      fail
    | none => fail

/-- The name of a choice: where no string stands, the scalar in its place is taken. -/
def choiceName : Reader String := do
  match ← peek with
  | some '"' => do advance; stringBody
  | _ => unexpected

/-- The null behind the name of a choice: the scalar in its place is taken. -/
def choiceNull : Reader Unit := do
  match ← peek with
  | some 'n' => do advance; word "ull"
  | _ => unexpected

/-- A choice: its name, or an object whose one member has that name and is null. -/
def choice {α : Type} (depth : Nat) (c : Choice α) : Reader α := do
  match ← peek with
  | some '"' => do
    advance
    let name ← stringBody
    extract (Extractor.ofExcept (c.ofName name))
  | some '\x7b' =>
    nested depth fun _ => do
      let name ← choiceName
      let a ← extract (Extractor.ofExcept (c.ofName name))
      colon
      choiceNull
      closeObject
      return a
  | _ => fail

/-- What a reader reads, or nothing where null stands. -/
def nullable {α : Type} (r : Reader α) : Reader (Option α) := do
  match ← peek with
  | some 'n' => do advance; word "ull"; return none
  | _ => do return some (← r)

/-- What a reader reads, or the default where it fails. -/
def orElse {α : Type} (mode : Resumption) (r : Reader α) (default : α) : Reader α := do
  match ← tolerate mode r with
  | .ok a => return a
  | .error _ => return default

end Reader

open Reader in
mutual

/-- Reads a value off the front of a text. -/
def Schema.read (mode : Resumption) : {α : Type} → Schema α → (depth : Nat) → Reader α
  | _, .string, _ => Reader.string
  | _, .bytes, depth => Reader.bytes depth
  | _, .flag, _ => Reader.flag
  | _, .word, _ => ofNumber Extractor.word
  | _, .integer, _ => ofNumber Extractor.integer
  | _, .timeout, depth => Reader.timeout mode depth
  | _, .spelled s, _ => do
    let text ← Reader.string
    Reader.extract (Extractor.ofExcept (s.parse text))
  | _, .choice c, depth => Reader.choice depth c
  | _, .lenient c default, depth => orElse mode (Reader.choice depth c) default
  | _, .lenientOption c, depth => orElse mode (nullable (Reader.choice depth c)) none
  | _, .nullable s, depth => nullable (s.read mode depth)
  | _, .list s, depth => array depth (s.read mode)
  | _, .tolerant s, depth => do
    let items ← array depth value
    Reader.extract (Extractor.readable s.extract items)
  | _, .listOrNull s, depth => do return (← nullable (s.read mode depth)).getD []
  | _, .dictionary, depth => do
    match ← peek with
    | some '\x7b' =>
      nested depth fun _ => do
        let d ← members (fun name d => do
          colon
          let s ← Reader.string
          return d.insert name s) Dictionary.empty
        closeObject
        return d
    | _ => fail
  | _, .record fields layout, depth => do
    match ← peek with
    | some '\x7b' =>
      nested depth fun depth => do
        let read ← members (fun name read => fields.readMember mode depth name read) fields.unread
        let parts ← Reader.extract (Extractor.ofExcept (fields.complete read))
        closeObject
        return layout.build parts
    | some '[' =>
      nested depth fun depth => do
        let parts ← fields.readElements mode depth true
        closeArray
        return layout.build parts
    | _ => fail
  | _, .extensible name known, depth => do
    match ← peek with
    | some '\x7b' =>
      nested depth fun depth => do
        let (value, others) ← members
          (fun given (read : Option (Option _) × List (String × Json)) =>
            if given = name then
              match read.1 with
              | some _ => throw (.duplicateField name)
              | none => do
                colon
                return (some (← nullable (known.read mode depth)), read.2)
            else do
              colon
              return (read.1, (given, ← Reader.value depth) :: read.2))
          (none, [])
        closeObject
        return ⟨value.getD none, .ofList (Json.resolveMembers others.reverse)⟩
    | _ => fail

/-- Reads the rest of a member behind its name: a known one unless it has been read before, while an
unknown one is passed over. -/
def Fields.readMember (mode : Resumption) :
    {τ σ : Type} → Fields τ σ → (depth : Nat) → (name : String) → σ → Reader σ
  | _, _, .nil, _, _, read => do
    colon
    skip
    return read
  | _, _, .cons name aliases schema _ rest, depth, given, (read, others) =>
    if given = name ∨ given ∈ aliases then
      match read with
      -- the repeat is reported at the name, before its colon is looked at
      | some _ => throw (.duplicateField name)
      | none => do
        colon
        return (some (← schema.read mode depth), others)
    else do return (read, ← rest.readMember mode depth given others)

/-- Reads the fields of a record from an array in order. -/
def Fields.readElements (mode : Resumption) :
    {τ σ : Type} → Fields τ σ → (depth : Nat) → (first : Bool) → Reader τ
  | _, _, .nil, _, _ => return ()
  | _, _, .cons _ _ schema presence rest, depth, first => do
    if ← nextElement first then
      let a ← schema.read mode depth
      return (a, ← rest.readElements mode depth false)
    else
      match presence.absent?, rest.absent? with
      | some a, some others => return (a, others)
      | _, _ => fail

end

/-- Reads a whole text directly. -/
def Schema.readText {α : Type} (s : Schema α) (text : Bytes) : Reading α :=
  Reader.run (s.read .inPlace Reader.maxDepth) text

end CredentialCeremony
