import CredentialCeremony.Binary.Utf8
import CredentialCeremony.Reading.Error

set_option autoImplicit false

/-!
# Readers

A `Reader` takes a value off the front of a text. It keeps its place when it fails: a field that
tolerates a bad value goes on where the failure left the reader. Warnings are kept as well, since a
document that fails later has logged them already.

A text is the sequence of its bytes. Bytes are compared as characters, which is exact for the ASCII
characters that the format is made of.
-/

namespace CredentialCeremony

/-- Where a reader stands: what is left of the text and what has been logged. -/
structure Cursor where
  rest : Bytes
  warnings : List TimeoutWarning
  deriving DecidableEq, Repr, Inhabited

/-- A reader of values of a type. -/
abbrev Reader (α : Type) := EStateM ReadError Cursor α

/-- A reader of values out of a tree that has been read before; it may log warnings. -/
abbrev Extractor (α : Type) := EStateM ReadError (List TimeoutWarning) α

/-- White space between the parts of a document. -/
def isSpace (b : UInt8) : Bool :=
  match Char.ofUInt8 b with
  | ' ' | '\n' | '\t' | '\r' => true
  | _ => false

namespace Reader

/-- Refuses the document without a message. -/
def fail {α : Type} : Reader α := throw .malformed

/-- The next character after white space, which is passed; the character is not. -/
def peek : Reader (Option Char) := fun c =>
  let rest := c.rest.dropWhile isSpace
  .ok (rest.head?.map Char.ofUInt8) { c with rest }

/-- Passes one character. -/
def advance : Reader Unit := fun c => .ok () { c with rest := c.rest.tail }

/-- Logs a warning. -/
def warn (w : TimeoutWarning) : Reader Unit := fun c =>
  .ok () { c with warnings := c.warnings ++ [w] }

/-- Runs a scanner, which answers the text behind what it took, or the text where it failed. -/
def scan {α : Type} (scanner : Bytes → Except Bytes (α × Bytes)) : Reader α := fun c =>
  match scanner c.rest with
  | .ok (a, rest) => .ok a { c with rest }
  | .error rest => .error .malformed { c with rest }

/-- Takes a value out of a tree in the middle of reading a text. -/
def extract {α : Type} (x : Extractor α) : Reader α := fun c =>
  match x c.warnings with
  | .ok a warnings => .ok a { c with warnings }
  | .error e warnings => .error e { c with warnings }

/-- What a reader answers, whether it fails or not. -/
def attempt {α : Type} (r : Reader α) : Reader (Except ReadError α) := fun c =>
  match r c with
  | .ok a c => .ok (.ok a) c
  | .error e c => .ok (.error e) c

/-- Reads the body of an array or object and then its closing; the closing is read even if the
body failed, and then the error of the body counts. -/
def closedBy {α : Type} (body : Reader α) (closing : Reader Unit) : Reader α := fun c =>
  match body c with
  | .ok a c =>
    match closing c with
    | .ok () c => .ok a c
    | .error e c => .error e c
  | .error e c =>
    match closing c with
    | .ok () c => .error e c
    | .error _ c => .error e c

end Reader

/-- The outcome of reading a document, and what was logged on the way. -/
structure Reading (α : Type) where
  outcome : Except ReadError α
  warnings : List TimeoutWarning

/-- The value that was read, if reading succeeded. -/
def Reading.value? {α : Type} (r : Reading α) : Option α := r.outcome.toOption

end CredentialCeremony
