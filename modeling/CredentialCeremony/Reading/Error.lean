import CredentialCeremony.Text.Quoted

set_option autoImplicit false

/-!
# Why a document is not read

`ReadError` holds the causes for which a document is refused, `TimeoutWarning` the causes for which
a timeout is dropped while the rest of its document is kept.
-/

namespace CredentialCeremony

/-- A cause for which a document is refused. A document that is no JSON, or holds a value of a
wrong type, is `malformed`. -/
inductive ReadError where
  | malformed
  | missingField (name : String)
  | duplicateField (name : String)
  | unknownVariant (name : String) (expected : List String)
  | notBase64 (text : String)
  | notVersion (text : String)
  deriving DecidableEq, Repr

namespace ReadError

/-- A name between grave accents. -/
def marked (name : String) : String := "\x60" ++ name ++ "\x60"

/-- The names that a variant may have: two are joined by `or`, others are listed. -/
def expectation : List String → String
  | [] => "there are no variants"
  | [name] => "expected " ++ marked name
  | [first, second] => "expected " ++ marked first ++ " or " ++ marked second
  | names => "expected one of " ++ ", ".intercalate (names.map marked)

/-- The message of an error; a malformed document has no message of its own. -/
def message? : ReadError → Option String
  | .malformed => none
  | .missingField name => some ("missing field " ++ marked name)
  | .duplicateField name => some ("duplicate field " ++ marked name)
  | .unknownVariant name expected =>
    some ("unknown variant " ++ marked name ++ ", " ++ expectation expected)
  | .notBase64 text =>
    some ("invalid value: string " ++ Text.quoted text ++ ", expected A base64(url) encoded string")
  | .notVersion text => some (marked text ++ " is not a dotted version")

end ReadError

/-- A cause for which a timeout is treated as absent. -/
inductive TimeoutWarning where
  | notANumber
  | notMilliseconds
  | notAScalar
  deriving DecidableEq, Repr

/-- The reason that is logged. -/
def TimeoutWarning.message : TimeoutWarning → String
  | .notANumber => "not a number"
  | .notMilliseconds => "not a non-negative number of milliseconds within 32 bits"
  | .notAScalar => "neither a number nor a string"

end CredentialCeremony
