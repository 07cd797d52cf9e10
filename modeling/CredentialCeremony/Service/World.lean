import CredentialCeremony.Options.Resolved
import CredentialCeremony.Service.Error

set_option autoImplicit false

/-!
# What a service meets

A service fetches options, calls the platform, and logs what it does. `Event` is one such step as
seen from outside and a list of events is a history. A `World` answers fetches and calls; its
answers may depend on the whole history before them, so a world can be any sequence of answers.
-/

namespace CredentialCeremony

/-- How serious a log entry is. -/
inductive Level where
  | debug
  | warn
  deriving DecidableEq, Repr

/-- The name of a level. -/
def Level.name : Level → String
  | .debug => "DEBUG"
  | .warn => "WARN"

/-- What a service or a fetcher logs. -/
inductive LogEntry where
  | fetching (url : String)
  | malformedOptions (url : String) (cause : DecodeError)
  | refused (status : Nat)
  | timeoutIgnored (reason : TimeoutWarning)
  | creating (rpId : Option String)
  | requesting (rpId : Option String)
  deriving DecidableEq, Repr

namespace LogEntry

/-- The level of a log entry. -/
def level : LogEntry → Level
  | .fetching _ | .creating _ | .requesting _ => .debug
  | .malformedOptions _ _ | .refused _ | .timeoutIgnored _ => .warn

/-- The message of a log entry. -/
def message : LogEntry → String
  | .fetching url => "Fetching ceremony options from " ++ url
  | .malformedOptions url cause =>
    "Ceremony options from " ++ url ++ " are malformed: " ++ cause.message
  | .refused status => "Options resource answered with " ++ toString status
  | .timeoutIgnored reason => reason.message
  | .creating rpId => "Creating credential for relying party " ++ Text.quotedOption rpId
  | .requesting rpId => "Requesting assertion for relying party " ++ Text.quotedOption rpId

/-- The level and the message. -/
def text (e : LogEntry) : String := e.level.name ++ " " ++ e.message

end LogEntry

/-- A step of a service as seen from outside. -/
inductive Event where
  | logged (entry : LogEntry)
  | fetched (url : String)
  | created (call : CreationCall)
  | requested (call : RequestCall)
  deriving DecidableEq

/-- The events of a service in order. -/
abbrev History := List Event

namespace Event

/-- The log entry of an event. -/
def entry? : Event → Option LogEntry
  | .logged entry => some entry
  | _ => none

/-- The URL of a fetch. -/
def url? : Event → Option String
  | .fetched url => some url
  | _ => none

end Event

/-- The answer to a fetch, and what was logged while it was made. -/
structure FetchAnswer where
  logged : List LogEntry
  outcome : Except TransportError WireOptions

/-- The answer of a service that has nothing to fetch with. -/
def FetchAnswer.unconfigured (url : String) : FetchAnswer :=
  ⟨[], .error (.network ("no fetcher configured to retrieve " ++ url))⟩

/-- What a service meets: the answers to fetches and to the two calls of the platform, which make
values of the types `γ` and `δ`. -/
structure World (γ δ : Type) where
  fetch : History → (url : String) → FetchAnswer
  create : History → CreationCall → Except PlatformError γ
  get : History → RequestCall → Except PlatformError δ

end CredentialCeremony
