import CredentialCeremony.Negotiation
import CredentialCeremony.Service.World

set_option autoImplicit false

/-!
# The service

A service holds the URL of the options and nothing else. Each ceremony takes the options of the
server as given or fetches them, negotiates, and makes one call of the platform; the first stage
that fails ends it, and nothing is tried twice or kept for later.

Main statements: `Service.step_optionsUrl` (only setting the URL changes it) and
`Service.resolve_given` (options that are given are used without an event).
-/

namespace CredentialCeremony

/-- A service, which remembers where the options are. -/
structure Service where
  optionsUrl : String
  deriving DecidableEq, Repr, Inhabited

/-- A computation that adds to the history and may fail. -/
abbrev Ceremony (α : Type) := ExceptT CeremonyError (StateM History) α

/-- What a service is asked to do. -/
inductive Step where
  | setUrl (url : String)
  | fetch
  | create (caller : CallerCreation) (server : Option ServerOptions)
  | get (caller : CallerRequest) (server : Option ServerOptions)

/-- What a service answers. -/
inductive Answer (γ δ : Type) where
  | done
  | options (server : ServerOptions)
  | created (credential : γ)
  | asserted (credential : δ)

namespace Ceremony

/-- Adds an event to the history. -/
def record (e : Event) : Ceremony Unit := fun history => (.ok (), history ++ [e])

/-- The history so far. -/
def history : Ceremony History := fun history => (.ok history, history)

/-- An outcome, whose error is seen as one of the ceremony. -/
def ofExcept {ε α : Type} (toError : ε → CeremonyError) : Except ε α → Ceremony α
  | .ok a => pure a
  | .error e => throw (toError e)

end Ceremony

namespace Service

open Ceremony

variable {γ δ : Type}

/-- Where the options are unless set otherwise. -/
def defaultUrl : String := "/webauthn/options"

/-- A service with the default URL. -/
def initial : Service := ⟨defaultUrl⟩

/-- Fetches the options and decodes their binary values. -/
def fetchServerOptions (w : World γ δ) (s : Service) : Ceremony ServerOptions := do
  -- the entry is in the history that the world sees when it answers
  record (.logged (.fetching s.optionsUrl))
  let answer := w.fetch (← history) s.optionsUrl
  record (.fetched s.optionsUrl)
  answer.logged.forM fun entry => record (.logged entry)
  let wire ← Ceremony.ofExcept .transport answer.outcome
  match ServerOptions.ofWire wire with
  | .ok server => return server
  | .error cause => do
    record (.logged (.malformedOptions s.optionsUrl cause))
    throw (.decode cause)

/-- The options of the server: as given, or fetched. -/
def resolve (w : World γ δ) (s : Service) : Option ServerOptions → Ceremony ServerOptions
  | some server => return server
  | none => fetchServerOptions w s

/-- Registers a credential. -/
def createCredential (w : World γ δ) (s : Service) (caller : CallerCreation)
    (server : Option ServerOptions) : Ceremony γ := do
  let server ← resolve w s server
  match negotiateCreation caller server with
  | none => throw .missingUser
  | some call => do
    record (.logged (.creating call.publicKey.rp.id))
    let answer := w.create (← history) call
    record (.created call)
    Ceremony.ofExcept .ceremony answer

/-- Gets an assertion from a credential. -/
def getCredential (w : World γ δ) (s : Service) (caller : CallerRequest)
    (server : Option ServerOptions) : Ceremony δ := do
  let server ← resolve w s server
  let call := negotiateRequest caller server
  record (.logged (.requesting call.publicKey.rpId))
  let answer := w.get (← history) call
  record (.requested call)
  Ceremony.ofExcept .ceremony answer

/-- What a step answers. -/
def perform (w : World γ δ) (s : Service) : Step → Ceremony (Answer γ δ)
  | .setUrl _ => return .done
  | .fetch => do return .options (← fetchServerOptions w s)
  | .create caller server => do return .created (← createCredential w s caller server)
  | .get caller server => do return .asserted (← getCredential w s caller server)

/-- The service after a step. -/
def after (s : Service) : Step → Service
  | .setUrl url => ⟨url⟩
  | _ => s

/-- One step: the service after it, its answer, and the history with the events of the step. -/
def step (w : World γ δ) (s : Service) (history : History) (step : Step) :
    Service × Except CeremonyError (Answer γ δ) × History :=
  let (answer, history) := perform w s step history
  (s.after step, answer, history)

/-- A sequence of steps: the service after it, the answers in order, and the history. -/
def run (w : World γ δ) (s : Service) (history : History) :
    List Step → Service × List (Except CeremonyError (Answer γ δ)) × History
  | [] => (s, [], history)
  | first :: rest =>
    let (s, answer, history) := step w s history first
    let (s, answers, history) := run w s history rest
    (s, answer :: answers, history)

/-- Only setting the URL changes it. -/
theorem step_optionsUrl (w : World γ δ) (s : Service) (history : History) (action : Step) :
    (step w s history action).1.optionsUrl =
      match action with
      | .setUrl url => url
      | _ => s.optionsUrl := by
  cases action <;> rfl

/-- Options that are given are used without an event. -/
theorem resolve_given (w : World γ δ) (s : Service) (server : ServerOptions) (history : History) :
    resolve w s (some server) history = (.ok server, history) := rfl

end Service
end CredentialCeremony
