import CredentialCeremony.Schema.Direct
import CredentialCeremony.Service.World
import CredentialCeremony.Web.Url

set_option autoImplicit false

/-!
# Fetching the options over HTTP

The URL of the options is resolved against an origin, one request is sent, and the body of a
successful response is read as served options. The first stage that fails decides: the URL, the
connection, the status, the body on its way, the body as a document.

Main statements: `fetchOptions_of_join?_eq_none` (an address that does not resolve is reported as it
was given, whatever the connection would do) and `isSuccess_iff`.
-/

namespace CredentialCeremony.Web

/-- A request for the options. -/
structure Request where
  target : Url
  accept : String
  deriving DecidableEq, Repr

/-- The first line of a request: the target without its fragment. -/
def Request.line (r : Request) : String := "GET " ++ r.target.textWithoutFragment ++ " HTTP/1.1"

/-- A response; the body may break off on its way. -/
structure Response where
  status : Nat
  body : Except String Bytes

/-- How a request is answered; a connection that fails has a message. -/
abbrev Connection := Request → Except String Response

/-- The connection that never opens. -/
def Connection.closed : Connection := fun _ => .error "connection closed"

/-- Whether a status is one of success. -/
def isSuccess (status : Nat) : Bool := status / 100 == 2

/-- The message of a body that is no options document. -/
def bodyMessage (e : ReadError) : String := e.message?.getD "json"

/-- The request for the options at a URL, resolved against an origin. -/
def request? (origin : Url) (url : String) : Option Request :=
  (origin.join? url).map fun target => ⟨target, "application/json"⟩

/-- The served options of a response. -/
def readResponse (r : Response) : FetchAnswer :=
  if ¬ isSuccess r.status then ⟨[.refused r.status], .error (.status r.status)⟩
  else match r.body with
    | .error message => ⟨[], .error (.network message)⟩
    | .ok bytes =>
      let reading := WireOptions.schema.readText bytes
      ⟨reading.warnings.map .timeoutIgnored,
        match reading.outcome with
        | .ok wire => .ok wire
        | .error e => .error (.body (bodyMessage e))⟩

/-- Fetches the options at a URL. -/
def fetchOptions (connection : Connection) (origin : Url) (url : String) : FetchAnswer :=
  match request? origin url with
  | none => ⟨[], .error (.invalidUrl url)⟩
  | some request =>
    match connection request with
    | .error message => ⟨[], .error (.network message)⟩
    | .ok response => readResponse response

theorem isSuccess_iff {status : Nat} : isSuccess status = true ↔ 200 ≤ status ∧ status ≤ 299 := by
  simp only [isSuccess, beq_iff_eq]
  omega

theorem fetchOptions_of_join?_eq_none {connection : Connection} {origin : Url} {url : String}
    (h : origin.join? url = none) :
    fetchOptions connection origin url = ⟨[], .error (.invalidUrl url)⟩ := by
  simp [fetchOptions, request?, h]

end CredentialCeremony.Web
