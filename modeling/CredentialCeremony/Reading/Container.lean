import CredentialCeremony.Reading.Token

set_option autoImplicit false

/-!
# Arrays, objects and values

`Reader.elements` and `Reader.members` read what stands between the brackets of an array and the
braces of an object, with any reader for the parts; `Reader.value` reads a whole value with them.

The rounds of a loop are counted along the text that is left when it starts. Every round takes at
least one byte of it, so a loop has ended before the count does. Values may be nested only so
deep: `depth` is how many further arrays and objects may be opened.
-/

namespace CredentialCeremony.Reader

/-- How many arrays and objects may stand inside one another in a document. -/
def maxDepth : Nat := 127

/-- Whether another element follows; the bracket that ends the array is not passed. -/
def nextElement (first : Bool) : Reader Bool := do
  match ← peek with
  | none => fail
  | some ']' => return false
  | some c =>
    if first then return true
    else if c = ',' then
      advance
      match ← peek with
      | none => fail
      | some ']' => fail
      | some _ => return true
    else fail

/-- Whether another member follows, up to the opening mark of its name, which is passed; the brace
that ends the object is not passed. -/
def nextMember (first : Bool) : Reader Bool := do
  match ← peek with
  | none => fail
  | some '\x7d' => return false
  | some c =>
    if first then
      if c = '"' then advance; return true
      else fail
    else if c = ',' then
      advance
      match ← peek with
      | some '"' => advance; return true
      | _ => fail
    else fail

/-- The colon between a name and its value. -/
def colon : Reader Unit := do
  match ← peek with
  | some ':' => advance
  | _ => fail

/-- The bracket that ends an array. A comma in its place is passed before the failure. -/
def closeArray : Reader Unit := do
  match ← peek with
  | some ']' => advance
  | some ',' => do advance; fail
  | _ => fail

/-- The brace that ends an object. -/
def closeObject : Reader Unit := do
  match ← peek with
  | some '\x7d' => advance
  | _ => fail

/-- The elements of an array up to its closing bracket. -/
def elementsAlong {α : Type} (element : Reader α) :
    (clock : Bytes) → (first : Bool) → Reader (List α)
  | [], _ => fail
  | _ :: clock, first => do
    if ← nextElement first then
      let a ← element
      let rest ← elementsAlong element clock false
      return a :: rest
    else return []

/-- The elements of an array up to its closing bracket. -/
def elements {α : Type} (element : Reader α) : Reader (List α) := fun c =>
  elementsAlong element c.rest true c

/-- Goes over the members of an object up to its closing brace; `member` is told the name, reads on
from behind it and carries a state from member to member. -/
def membersAlong {σ : Type} (member : String → σ → Reader σ) :
    (clock : Bytes) → (first : Bool) → σ → Reader σ
  | [], _, _ => fail
  | _ :: clock, first, state => do
    if ← nextMember first then
      let name ← stringBody
      let state ← member name state
      membersAlong member clock false state
    else return state

/-- Goes over the members of an object up to its closing brace. -/
def members {σ : Type} (member : String → σ → Reader σ) (state : σ) : Reader σ := fun c =>
  membersAlong member c.rest true state c

/-- A word, number or string whose first character is the next one; `none` if the next character
starts no such value, and then nothing is passed. -/
def scalar? (c : Char) : Option (Reader Json) :=
  match c with
  | 'n' => some do advance; word "ull"; return .null
  | 't' => some do advance; word "rue"; return .bool true
  | 'f' => some do advance; word "alse"; return .bool false
  | '-' => some do advance; return .number (← numeral true)
  | '"' => some do advance; return .string (← stringBody)
  | c => if c.isDigit then some do return .number (← numeral false) else none

/-- An array, whose opening bracket comes next. -/
def arrayOf (item : Reader Json) : Reader Json := do
  advance
  -- a bracket behind an element that failed is passed all the same
  closedBy (do return .array (← elements item)) closeArray

/-- An object, whose opening brace comes next, with every member in order. -/
def objectOf (item : Reader Json) : Reader Json := do
  advance
  closedBy
    (do
      let taken ← members (fun name taken => do
        colon
        let json ← item
        return (name, json) :: taken) []
      return .object taken.reverse)
    closeObject

/-- A scalar, or what `nested` reads if the next character starts no scalar. -/
def scalarOr (nested : Char → Reader Json) : Reader Json := do
  match ← peek with
  | none => fail
  | some c =>
    match scalar? c with
    | some scalar => scalar
    | none => nested c

/-- A value of any kind. -/
def value : (depth : Nat) → Reader Json
  | 0 => scalarOr fun _ => fail
  | depth + 1 => scalarOr fun c =>
    match c with
    | '[' => arrayOf (value depth)
    | '\x7b' => objectOf (value depth)
    | _ => fail

/-- Only white space is left. -/
def finish : Reader Unit := do
  match ← peek with
  | none => return ()
  | some _ => fail

/-- Runs a reader over a whole text, behind which only white space may stand. -/
def run {α : Type} (r : Reader α) (text : Bytes) : Reading α :=
  match (do let a ← r; finish; return a : Reader α) ⟨text, []⟩ with
  | .ok a c => ⟨.ok a, c.warnings⟩
  | .error e c => ⟨.error e, c.warnings⟩

end CredentialCeremony.Reader
