import CredentialCeremony.Proofs.Service.Runs

set_option autoImplicit false

/-!
# Options fetched in a step of their own

A ceremony that is not given the options of the server fetches them itself. Instead, the options may
be fetched in a step of their own, and the ceremony be given what that step answers, or not be held
at all if that step fails. A `Turn` is a step, or a ceremony held in two steps in this way. A fetch
makes the same events in both places, so whatever answers it sees the same history, and so does the
platform.

Main statement: over any sequence of turns, holding ceremonies in two steps changes neither an answer
nor the history (`Service.runTurns_eq_run`).
-/

namespace CredentialCeremony

/-- A step, or a ceremony whose options are fetched in a step of their own. -/
inductive Turn where
  | once (step : Step)
  | createInTwo (caller : CallerCreation)
  | getInTwo (caller : CallerRequest)

/-- The one step that does what is done in a turn. -/
def Turn.step : Turn → Step
  | .once step => step
  | .createInTwo caller => .create caller none
  | .getInTwo caller => .get caller none

namespace Service

open Ceremony

variable {γ δ : Type}

/-- A step that fetches the options, and a step that is given them if there are any. -/
def fetchThen (w : World γ δ) (s : Service) (history : History) (given : ServerOptions → Step) :
    Service × Except CeremonyError (Answer γ δ) × History :=
  match step w s history .fetch with
  | (s, .ok (.options server), history) => step w s history (given server)
  | (s, answer, history) => (s, answer, history)

/-- One turn: the service after it, its answer, and the history with the events of the turn. -/
def turn (w : World γ δ) (s : Service) (history : History) :
    Turn → Service × Except CeremonyError (Answer γ δ) × History
  | .once action => step w s history action
  | .createInTwo caller => fetchThen w s history fun server => .create caller (some server)
  | .getInTwo caller => fetchThen w s history fun server => .get caller (some server)

/-- A sequence of turns: the service after it, the answers in order, and the history. -/
def runTurns (w : World γ δ) (s : Service) (history : History) :
    List Turn → Service × List (Except CeremonyError (Answer γ δ)) × History
  | [] => (s, [], history)
  | first :: rest =>
    let (s, answer, history) := turn w s history first
    let (s, answers, history) := runTurns w s history rest
    (s, answer :: answers, history)

/-! ## What stands behind the options -/

theorem perform_fetch (w : World γ δ) (s : Service) :
    perform w s .fetch = fetchServerOptions w s >>= fun server => pure (.options server) := rfl

/-- A registration is held behind its options, where they come from aside. -/
theorem perform_create (w : World γ δ) (s : Service) (caller : CallerCreation)
    (server : Option ServerOptions) :
    perform w s (.create caller server) =
      resolve w s server >>= fun server => do return .created (← register w caller server) :=
  bind_assoc ..

/-- An authentication is held behind its options, where they come from aside. -/
theorem perform_get (w : World γ δ) (s : Service) (caller : CallerRequest)
    (server : Option ServerOptions) :
    perform w s (.get caller server) =
      resolve w s server >>= fun server => do return .asserted (← authenticate w caller server) :=
  bind_assoc ..

/-! ## One turn -/

theorem step_of_perform {w : World γ δ} {s : Service} {history after : History} {action : Step}
    {answer : Except CeremonyError (Answer γ δ)}
    (h : perform w s action history = (answer, after)) :
    step w s history action = (s.after action, answer, after) := by
  rw [step, h]

/-- What stands behind the options of a ceremony does so as well where a step before has fetched
them, and where that step has failed it is not reached. -/
theorem fetchThen_eq_step {w : World γ δ} {s : Service} {needy : Step} {given : ServerOptions → Step}
    {behind : ServerOptions → Ceremony (Answer γ δ)} (hafter : s.after needy = s)
    (hgivenAfter : ∀ server, s.after (given server) = s)
    (hneedy : perform w s needy = resolve w s none >>= behind)
    (hgiven : ∀ server, perform w s (given server) = resolve w s (some server) >>= behind)
    (history : History) : fetchThen w s history given = step w s history needy := by
  have hfetch := bind_apply (fetchServerOptions w s)
    (fun server => pure (.options server) : _ → Ceremony (Answer γ δ)) history
  have hall := bind_apply (fetchServerOptions w s) behind history
  rw [← perform_fetch] at hfetch
  rw [← resolve_none, ← hneedy, resolve_none] at hall
  cases hserver : fetchServerOptions w s history with
  | mk outcome after =>
    rw [hserver] at hfetch hall
    cases outcome with
    | error e =>
      rw [fetchThen, step_of_perform hfetch, step_of_perform hall, hafter]
      rfl
    | ok server =>
      -- the ceremony goes on from the history that the fetch leaves
      have hrest : perform w s (given server) after = behind server after := by
        rw [hgiven, bind_apply, resolve_given]
      rw [fetchThen, step_of_perform hfetch, step_of_perform hall, hafter]
      exact (step_of_perform hrest).trans (by rw [hgivenAfter])

/-- A turn answers what its one step answers, and leaves the same service and history. -/
theorem turn_eq_step (w : World γ δ) (s : Service) (history : History) (t : Turn) :
    turn w s history t = step w s history t.step := by
  cases t with
  | once action => rfl
  | createInTwo caller =>
    exact fetchThen_eq_step rfl (fun _ => rfl) (perform_create w s caller none)
      (fun server => perform_create w s caller (some server)) history
  | getInTwo caller =>
    exact fetchThen_eq_step rfl (fun _ => rfl) (perform_get w s caller none)
      (fun server => perform_get w s caller (some server)) history

/-! ## Runs -/

/-- Over any sequence of turns, ceremonies held in two steps answer what they answer in one, and so
does every step behind them; the history is the same, with the URLs that are fetched and the calls of
the platform in it, and so is the service that is left. -/
theorem runTurns_eq_run (w : World γ δ) (s : Service) (history : History) (turns : List Turn) :
    runTurns w s history turns = run w s history (turns.map Turn.step) := by
  -- on the turns, for any service and history, since both change on the way
  induction turns generalizing s history with
  | nil => rfl
  | cons first turns ih =>
    rw [List.map_cons, runTurns, run, turn_eq_step]
    simp only [ih]

end Service
end CredentialCeremony
