import CredentialCeremony.Options.Server
import CredentialCeremony.Schema.Printer

set_option autoImplicit false

/-!
# Failures of a ceremony

A ceremony fails in one of four stages: the options are not fetched, they are not decoded, nobody
names a user to register for, or the platform refuses. Each failure has a message and a JSON form.
-/

namespace CredentialCeremony

/-- The options were not fetched. -/
inductive TransportError where
  | network (message : String)
  | status (code : Nat)
  | body (message : String)
  | invalidUrl (url : String)
  deriving DecidableEq, Repr

namespace TransportError

/-- The message of a failed fetch. -/
def message : TransportError → String
  | .network message => "network error: " ++ message
  | .status code => "unexpected HTTP status " ++ toString code
  | .body message => "malformed options body: " ++ message
  | .invalidUrl url => "invalid options URL " ++ ReadError.marked url

/-- A value with the name of its kind. -/
def tagged (kind : String) (content : Json) : Json :=
  .object [("type", .string kind), ("content", content)]

/-- A failed fetch in JSON. -/
def toJson : TransportError → Json
  | .network message => tagged "Network" (.string message)
  | .status code => tagged "Status" (.number (.integer code))
  | .body message => tagged "Body" (.string message)
  | .invalidUrl url => tagged "InvalidUrl" (.string url)

end TransportError

/-- What a platform raises when a ceremony fails, for instance when the user cancels it. -/
structure PlatformError where
  name : String
  message : String
  deriving DecidableEq, Repr, Inhabited

namespace PlatformError

/-- A platform error in a document. -/
def schema : Schema PlatformError :=
  .record
    (.required "name" .string <| .required "message" .string <| .nil)
    { build := fun (name, message, ()) => ⟨name, message⟩
      parts := fun e => (e.name, e.message, ()) }

/-- The name and the details. -/
def display (e : PlatformError) : String := e.name ++ ": " ++ e.message

end PlatformError

/-- A failed ceremony. -/
inductive CeremonyError where
  | transport (cause : TransportError)
  | decode (cause : DecodeError)
  | ceremony (cause : PlatformError)
  | missingUser
  deriving DecidableEq, Repr

namespace CeremonyError

/-- The name of the stage that failed. -/
def kind : CeremonyError → String
  | .transport _ => "Transport"
  | .decode _ => "Decode"
  | .ceremony _ => "Ceremony"
  | .missingUser => "MissingUser"

/-- The message of the failure behind the one of the ceremony. -/
def source? : CeremonyError → Option String
  | .transport cause => some cause.message
  | .decode cause => some cause.message
  | .ceremony cause => some cause.display
  | .missingUser => none

/-- The message of a failed ceremony. -/
def message : CeremonyError → String
  | .transport cause => "could not fetch ceremony options: " ++ cause.message
  | .decode cause => "could not decode ceremony options: " ++ cause.message
  | .ceremony cause => "ceremony failed: " ++ cause.display
  | .missingUser => "no user entity to register a credential for"

/-- A failed ceremony in JSON. -/
def toJson : CeremonyError → Json
  | .transport cause => TransportError.tagged "Transport" cause.toJson
  | .decode cause => TransportError.tagged "Decode" (.object [("field", .string cause.field)])
  | .ceremony cause => TransportError.tagged "Ceremony" (PlatformError.schema.toJson cause)
  | .missingUser => .object [("type", .string "MissingUser")]

end CeremonyError
end CredentialCeremony
