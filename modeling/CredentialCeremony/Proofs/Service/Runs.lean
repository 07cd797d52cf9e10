import CredentialCeremony.Service.Basic

set_option autoImplicit false

/-!
# Runs of a service

What a service asks of the outside over any sequence of steps: which URLs it fetches, and which calls
of the platform it makes. Both are read off the history that a run leaves behind, and both are
determined step by step, each by the steps before it and the answers met on the way.

Main statement: every step makes the fetch and the call that are due and no other, and only setting
the URL changes it (`Service.run_history`).
-/

namespace CredentialCeremony

/-- A call of the platform. -/
inductive NativeCall where
  | create (call : CreationCall)
  | get (call : RequestCall)
  deriving DecidableEq

/-- The call of the platform that an event is. -/
def Event.call? : Event → Option NativeCall
  | .created call => some (.create call)
  | .requested call => some (.get call)
  | _ => none

namespace Step

/-- The URL that a step sets. -/
def newUrl? : Step → Option String
  | .setUrl url => some url
  | _ => none

/-- Whether a step needs the options of the server and has not been given them. -/
def fetches : Step → Bool
  | .setUrl _ => false
  | .fetch => true
  | .create _ server => server.isNone
  | .get _ server => server.isNone

end Step

/-- The URL that was set last, or else the one at the start. -/
def latestUrl (start : String) (before : List Step) : String :=
  (before.filterMap Step.newUrl?).getLast?.getD start

/-- What is due at each step in order, where it may depend on the steps before. -/
def dueAlong {α : Type} (due? : List Step → Step → Option α) (steps : List Step) : List α :=
  steps.zipIdx.filterMap fun (step, i) => due? (steps.take i) step

/-- The URL that is fetched where a step stands. -/
def dueFetch? (start : String) (before : List Step) (step : Step) : Option String :=
  if step.fetches then some (latestUrl start before) else none

variable {γ δ : Type}

/-- The options that a fetch obtains, if it is answered and every binary value can be decoded. -/
def obtained? (w : World γ δ) (url : String) (history : History) : Option ServerOptions :=
  match (w.fetch (history ++ [.logged (.fetching url)]) url).outcome with
  | .ok wire => (ServerOptions.ofWire wire).toOption
  | .error _ => none

/-- The call of the platform that a step makes: the options of the server are those given, or those
obtained by the fetch of this step. -/
def dueCall? (w : World γ δ) (url : String) (history : History) : Step → Option NativeCall
  | .create caller server =>
    (server <|> obtained? w url history).bind fun server =>
      (negotiateCreation caller server).map .create
  | .get caller server =>
    (server <|> obtained? w url history).bind fun server =>
      some (.get (negotiateRequest caller server))
  | _ => none

@[simp] theorem latestUrl_nil (start : String) : latestUrl start [] = start := rfl

@[simp] theorem latestUrl_cons (start : String) (step : Step) (before : List Step) :
    latestUrl start (step :: before) = latestUrl (step.newUrl?.getD start) before := by
  cases h : step.newUrl? with
  | none => simp [latestUrl, h]
  | some url =>
    simp only [latestUrl, List.filterMap_cons, h, Option.getD_some]
    -- a URL that is set later takes the place of this one
    cases before.filterMap Step.newUrl? with
    | nil => rfl
    | cons first urls => rfl

@[simp] theorem dueAlong_nil {α : Type} (due? : List Step → Step → Option α) :
    dueAlong due? [] = [] := rfl

@[simp] theorem dueAlong_cons {α : Type} (due? : List Step → Step → Option α) (first : Step)
    (steps : List Step) :
    dueAlong due? (first :: steps) =
      (due? [] first).toList ++ dueAlong (fun before => due? (first :: before)) steps := by
  unfold dueAlong
  rw [List.zipIdx_cons, List.zipIdx_succ]
  cases h : due? [] first with
  | none => simp [List.filterMap_map, Function.comp_def, h]
  | some a => simp [List.filterMap_map, Function.comp_def, h]

namespace Ceremony

variable {α β : Type}

theorem bind_apply (x : Ceremony α) (f : α → Ceremony β) (history : History) :
    (x >>= f) history =
      match x history with
      | (.ok a, after) => f a after
      | (.error e, after) => (.error e, after) := by
  cases hx : x history with
  | mk outcome after =>
    simp only [bind, ExceptT.bind, ExceptT.mk, ExceptT.bindCont, StateT.bind, hx]
    cases outcome <;> rfl

/-- The computation fetches these URLs and makes these calls, and it answers this or fails. -/
def Makes (x : Ceremony α) (history : History) (urls : List String) (calls : List NativeCall)
    (answer? : Option α) : Prop :=
  ∃ events outcome, x history = (outcome, history ++ events) ∧
    events.filterMap Event.url? = urls ∧ events.filterMap Event.call? = calls ∧
      outcome.toOption = answer?

/-- The same, whatever the answer is. -/
def Asks (x : Ceremony α) (history : History) (urls : List String) (calls : List NativeCall) :
    Prop :=
  ∃ answer?, Makes x history urls calls answer?

variable {x : Ceremony α} {f : α → Ceremony β} {history : History} {urls urls' : List String}
  {calls calls' : List NativeCall}

/-- A failure ends a computation, and nothing is asked behind it. -/
theorem Makes.bind_none (h : Makes x history urls calls none) :
    Asks (x >>= f) history urls calls := by
  obtain ⟨events, outcome, hx, hurls, hcalls, hanswer⟩ := h
  cases outcome with
  | ok a => cases hanswer
  | error e =>
    refine ⟨none, events, .error e, ?_, hurls, hcalls, rfl⟩
    rw [bind_apply, hx]

/-- Behind an answer, the rest of a computation asks for what it needs. -/
theorem Makes.bind_some {a : α} (h : Makes x history urls calls (some a))
    (hf : ∀ after, Asks (f a) after urls' calls') :
    Asks (x >>= f) history (urls ++ urls') (calls ++ calls') := by
  obtain ⟨events, outcome, hx, rfl, rfl, hanswer⟩ := h
  cases outcome with
  | error e => cases hanswer
  | ok b =>
    cases hanswer
    obtain ⟨answer?, events', outcome', hrest, rfl, rfl, hanswer'⟩ := hf (history ++ events)
    refine ⟨answer?, events ++ events', outcome', ?_, ?_, ?_, hanswer'⟩
    · rw [bind_apply, hx, ← List.append_assoc]
      exact hrest
    · exact List.filterMap_append
    · exact List.filterMap_append

/-- What is done with an answer at the end asks for nothing. -/
theorem Asks.map (h : Asks x history urls calls) (g : α → β) :
    Asks (do return g (← x)) history urls calls := by
  obtain ⟨answer?, hmakes⟩ := h
  cases answer? with
  | none => exact hmakes.bind_none
  | some a =>
    have hreturn (after : History) : Asks (do return g a : Ceremony β) after [] [] :=
      ⟨some (g a), [], .ok (g a), by rw [List.append_nil]; rfl, rfl, rfl, rfl⟩
    have hall : Asks (do return g (← x)) history (urls ++ []) (calls ++ []) :=
      hmakes.bind_some hreturn
    rwa [List.append_nil, List.append_nil] at hall

theorem forM_record (entries : List LogEntry) (history : History) :
    (entries.forM fun entry => record (.logged entry)) history =
      (.ok (), history ++ entries.map .logged) := by
  induction entries generalizing history with
  | nil =>
    rw [List.map_nil, List.append_nil]
    rfl
  | cons entry entries ih =>
    have hrecord : record (.logged entry) history = (.ok (), history ++ [.logged entry]) := rfl
    have hcons : ((entry :: entries).forM fun entry => record (.logged entry)) =
        (do record (.logged entry); entries.forM fun entry => record (.logged entry)) := rfl
    rw [hcons, bind_apply, hrecord]
    simp only [ih, List.map_cons, List.append_assoc, List.singleton_append]

end Ceremony

/-- The events of a fetch, with what the fetcher logs. -/
def fetchEvents (url : String) (logged : List LogEntry) : History :=
  .logged (.fetching url) :: .fetched url :: logged.map .logged

theorem filterMap_url?_fetchEvents (url : String) (logged : List LogEntry) :
    (fetchEvents url logged).filterMap Event.url? = [url] := by
  have hlogged : (logged.map Event.logged).filterMap Event.url? = [] := by
    simp [List.filterMap_map, Event.url?]
  exact congrArg (List.cons url) hlogged

theorem filterMap_call?_fetchEvents (url : String) (logged : List LogEntry) :
    (fetchEvents url logged).filterMap Event.call? = [] := by
  have hlogged : (logged.map Event.logged).filterMap Event.call? = [] := by
    simp [List.filterMap_map, Event.call?]
  exact hlogged

namespace Service

open Ceremony

/-- What comes behind the answer of the fetcher: an answer is decoded, and a failure is logged. -/
def decoded (s : Service) (outcome : Except TransportError WireOptions) :
    Ceremony ServerOptions := do
  let wire ← Ceremony.ofExcept .transport outcome
  match ServerOptions.ofWire wire with
  | .ok server => return server
  | .error cause => do
    record (.logged (.malformedOptions s.optionsUrl cause))
    throw (.decode cause)

/-- What the answer of the fetcher is decoded as. -/
def optionsOf : Except TransportError WireOptions → Except CeremonyError ServerOptions
  | .error cause => .error (.transport cause)
  | .ok wire => (ServerOptions.ofWire wire).mapError .decode

/-- Behind the answer of the fetcher, decoding it does nothing but log. -/
theorem decoded_apply (s : Service) (outcome : Except TransportError WireOptions)
    (history : History) :
    ∃ logged : List LogEntry,
      decoded s outcome history = (optionsOf outcome, history ++ logged.map .logged) := by
  cases outcome with
  | error cause =>
    refine ⟨[], ?_⟩
    rw [List.map_nil, List.append_nil]
    rfl
  | ok wire =>
    have hwire : Ceremony.ofExcept .transport (.ok wire) history = (.ok wire, history) := rfl
    rw [decoded, bind_apply, hwire, optionsOf]
    dsimp only
    cases ServerOptions.ofWire wire with
    | ok server =>
      refine ⟨[], ?_⟩
      rw [List.map_nil, List.append_nil]
      rfl
    | error cause => exact ⟨[.malformedOptions s.optionsUrl cause], rfl⟩

/-- Fetching the options answers what the answer of the fetcher is decoded as. -/
theorem fetchServerOptions_eq (w : World γ δ) (s : Service) (history : History) :
    ∃ logged, fetchServerOptions w s history =
      (optionsOf (w.fetch (history ++ [.logged (.fetching s.optionsUrl)]) s.optionsUrl).outcome,
        history ++ fetchEvents s.optionsUrl logged) := by
  generalize hanswer : w.fetch (history ++ [.logged (.fetching s.optionsUrl)]) s.optionsUrl = answer
  have hfetch : fetchServerOptions w s history =
      (do
        answer.logged.forM fun entry => record (.logged entry)
        decoded s answer.outcome : Ceremony ServerOptions)
      (history ++ [.logged (.fetching s.optionsUrl)] ++ [.fetched s.optionsUrl]) := by
    rw [← hanswer]
    rfl
  rw [hfetch, bind_apply, forM_record]
  dsimp only
  obtain ⟨more, hdecoded⟩ := decoded_apply s answer.outcome
    (history ++ [.logged (.fetching s.optionsUrl)] ++ [.fetched s.optionsUrl] ++
      answer.logged.map .logged)
  refine ⟨answer.logged ++ more, ?_⟩
  rw [hdecoded]
  simp only [fetchEvents, List.map_append, List.append_assoc, List.cons_append, List.nil_append]

theorem fetchServerOptions_outcome (w : World γ δ) (s : Service) (history : History) :
    (fetchServerOptions w s history).1 = optionsOf
      (w.fetch (history ++ [.logged (.fetching s.optionsUrl)]) s.optionsUrl).outcome := by
  obtain ⟨logged, heq⟩ := fetchServerOptions_eq w s history
  rw [heq]

/-- Fetching the options asks for the URL once, and answers what that fetch obtains. -/
theorem fetchServerOptions_makes (w : World γ δ) (s : Service) (history : History) :
    Makes (fetchServerOptions w s) history [s.optionsUrl] []
      (obtained? w s.optionsUrl history) := by
  obtain ⟨logged, heq⟩ := fetchServerOptions_eq w s history
  refine ⟨_, _, heq, filterMap_url?_fetchEvents s.optionsUrl logged,
    filterMap_call?_fetchEvents s.optionsUrl logged, ?_⟩
  rw [obtained?]
  cases (w.fetch (history ++ [.logged (.fetching s.optionsUrl)]) s.optionsUrl).outcome with
  | error cause => rfl
  | ok wire =>
    rw [optionsOf]
    dsimp only
    cases ServerOptions.ofWire wire with
    | ok server => rfl
    | error cause => rfl

theorem resolve_none (w : World γ δ) (s : Service) : resolve w s none = fetchServerOptions w s := rfl

/-- Options that are given ask for nothing; otherwise they are fetched. -/
theorem resolve_makes (w : World γ δ) (s : Service) (server : Option ServerOptions)
    (history : History) :
    Makes (resolve w s server) history (if server.isNone then [s.optionsUrl] else []) []
      (server <|> obtained? w s.optionsUrl history) := by
  cases server with
  | none => exact fetchServerOptions_makes w s history
  | some server => exact ⟨[], .ok server, by rw [List.append_nil]; rfl, rfl, rfl, rfl⟩

/-- A call of the platform is logged in front and recorded behind, and its answer ends the
ceremony. -/
theorem call_apply {α : Type} (entry : LogEntry) (event : Event)
    (answer : History → Except PlatformError α) (history : History) :
    (do
      record (.logged entry)
      let answered := answer (← Ceremony.history)
      record event
      Ceremony.ofExcept .ceremony answered : Ceremony α) history =
      ((answer (history ++ [.logged entry])).mapError .ceremony,
        history ++ [.logged entry, event]) := by
  -- the answer is that to the history in front of the call
  have heq : (do
      record (.logged entry)
      let answered := answer (← Ceremony.history)
      record event
      Ceremony.ofExcept .ceremony answered : Ceremony α) history =
      (Ceremony.ofExcept .ceremony (answer (history ++ [.logged entry])) : Ceremony α)
        (history ++ [.logged entry, event]) := by
    have hboth : history ++ [.logged entry, event] = history ++ [.logged entry] ++ [event] :=
      List.append_cons ..
    rw [hboth]
    rfl
  rw [heq]
  cases answer (history ++ [.logged entry]) with
  | ok a => rfl
  | error e => rfl

/-- A call of the platform is made once, whatever the answer is. -/
theorem asks_call {α : Type} (entry : LogEntry) (event : Event) {call : NativeCall}
    (hurl : event.url? = none) (hcall : event.call? = some call)
    (answer : History → Except PlatformError α) (history : History) :
    Asks (do
      record (.logged entry)
      let answered := answer (← Ceremony.history)
      record event
      Ceremony.ofExcept .ceremony answered) history [] [call] := by
  refine ⟨_, _, _, call_apply entry event answer history, ?_, ?_, rfl⟩
  · rw [List.filterMap_cons_none rfl, List.filterMap_cons_none hurl]
    rfl
  · rw [List.filterMap_cons_none rfl, List.filterMap_cons_some hcall]
    rfl

/-- What comes behind the options of a registration. -/
def register (w : World γ δ) (caller : CallerCreation) (server : ServerOptions) : Ceremony γ :=
  match negotiateCreation caller server with
  | none => throw .missingUser
  | some call => do
    record (.logged (.creating call.publicKey.rp.id))
    let answer := w.create (← Ceremony.history) call
    record (.created call)
    Ceremony.ofExcept .ceremony answer

theorem register_asks (w : World γ δ) (caller : CallerCreation) (server : ServerOptions)
    (history : History) :
    Asks (register w caller server) history []
      ((negotiateCreation caller server).map NativeCall.create).toList := by
  rw [register]
  cases negotiateCreation caller server with
  | none => exact ⟨none, [], .error .missingUser, by rw [List.append_nil]; rfl, rfl, rfl, rfl⟩
  | some call => exact asks_call _ (.created call) rfl rfl (fun seen => w.create seen call) history

/-- What comes behind the options of an authentication. -/
def authenticate (w : World γ δ) (caller : CallerRequest) (server : ServerOptions) :
    Ceremony δ := do
  let call := negotiateRequest caller server
  record (.logged (.requesting call.publicKey.rpId))
  let answer := w.get (← Ceremony.history) call
  record (.requested call)
  Ceremony.ofExcept .ceremony answer

theorem authenticate_asks (w : World γ δ) (caller : CallerRequest) (server : ServerOptions)
    (history : History) :
    Asks (authenticate w caller server) history []
      [NativeCall.get (negotiateRequest caller server)] :=
  asks_call _ (.requested (negotiateRequest caller server)) rfl rfl
    (fun seen => w.get seen (negotiateRequest caller server)) history

/-- A ceremony fetches the options that it is not given, and makes its call if they are obtained. -/
theorem ceremony_asks {α : Type} {w : World γ δ} {s : Service} {server : Option ServerOptions}
    {history : History} {behind : ServerOptions → Ceremony α}
    {call? : ServerOptions → Option NativeCall}
    (hbehind : ∀ server after, Asks (behind server) after [] (call? server).toList) :
    Asks (do behind (← resolve w s server)) history
      (if server.isNone then [s.optionsUrl] else [])
      ((server <|> obtained? w s.optionsUrl history).bind call?).toList := by
  have hresolve := resolve_makes w s server history
  generalize (server <|> obtained? w s.optionsUrl history) = options? at hresolve ⊢
  cases options? with
  -- without options nothing is asked of the platform
  | none => exact hresolve.bind_none
  | some options =>
    have hall := hresolve.bind_some (hbehind options)
    rw [List.append_nil, List.nil_append] at hall
    exact hall

/-- A step asks for what is due where it stands. -/
theorem perform_asks (w : World γ δ) (s : Service) (history : History) (action : Step) :
    Asks (perform w s action) history (dueFetch? s.optionsUrl [] action).toList
      (dueCall? w s.optionsUrl history action).toList := by
  cases action with
  | setUrl url => exact ⟨some .done, [], .ok .done, by rw [List.append_nil]; rfl, rfl, rfl, rfl⟩
  | fetch =>
    have hfetch : Asks (fetchServerOptions w s) history [s.optionsUrl] [] :=
      ⟨_, fetchServerOptions_makes w s history⟩
    exact hfetch.map (Answer.options : ServerOptions → Answer γ δ)
  | create caller server =>
    have hcreate : Asks (createCredential w s caller server) history
        (if server.isNone then [s.optionsUrl] else [])
        (dueCall? w s.optionsUrl history (.create caller server)).toList :=
      ceremony_asks (register_asks w caller)
    have hanswered := hcreate.map (Answer.created : γ → Answer γ δ)
    -- options that are given make the step one that does not fetch
    cases server with
    | none => exact hanswered
    | some options => exact hanswered
  | get caller server =>
    have hget : Asks (getCredential w s caller server) history
        (if server.isNone then [s.optionsUrl] else [])
        (dueCall? w s.optionsUrl history (.get caller server)).toList :=
      ceremony_asks (authenticate_asks w caller)
    have hanswered := hget.map (Answer.asserted : δ → Answer γ δ)
    cases server with
    | none => exact hanswered
    | some options => exact hanswered

/-- The events of a step are those of the fetch and the call that are due. -/
theorem step_history (w : World γ δ) (s : Service) (history : History) (action : Step) :
    (step w s history action).2.2.filterMap Event.url? =
        history.filterMap Event.url? ++ (dueFetch? s.optionsUrl [] action).toList ∧
      (step w s history action).2.2.filterMap Event.call? =
        history.filterMap Event.call? ++ (dueCall? w s.optionsUrl history action).toList := by
  obtain ⟨answer?, events, outcome, heq, hurls, hcalls, -⟩ := perform_asks w s history action
  have hhistory : (step w s history action).2.2 = history ++ events := congrArg Prod.snd heq
  rw [hhistory, List.filterMap_append, List.filterMap_append, hurls, hcalls]
  exact ⟨rfl, rfl⟩

/-- A step leaves the service with the URL that it sets, if it sets one. -/
theorem after_optionsUrl (s : Service) (action : Step) :
    (s.after action).optionsUrl = action.newUrl?.getD s.optionsUrl := by
  cases action <;> rfl

/-- What is fetched behind a step is what is due there for the service that the step leaves. -/
theorem dueFetch?_cons (s : Service) (first : Step) (before : List Step) :
    dueFetch? s.optionsUrl (first :: before) = dueFetch? (s.after first).optionsUrl before := by
  funext action
  simp only [dueFetch?, latestUrl_cons, after_optionsUrl]

/-- The call that is due at a place in a run, with the history that the run has made up to there. -/
def callInRun? (w : World γ δ) (s : Service) (history : History) (before : List Step)
    (action : Step) : Option NativeCall :=
  dueCall? w (latestUrl s.optionsUrl before) (run w s history before).2.2 action

theorem callInRun?_cons (w : World γ δ) (s : Service) (history : History) (first : Step)
    (before : List Step) :
    callInRun? w s history (first :: before) =
      callInRun? w (s.after first) (step w s history first).2.2 before := by
  funext action
  simp only [callInRun?, latestUrl_cons, after_optionsUrl]
  rfl

theorem run_optionsUrl (w : World γ δ) (s : Service) (history : History) (steps : List Step) :
    (run w s history steps).1.optionsUrl = latestUrl s.optionsUrl steps := by
  induction steps generalizing s history with
  | nil => rfl
  | cons first steps ih =>
    rw [latestUrl_cons, ← after_optionsUrl]
    exact ih (s.after first) (step w s history first).2.2

theorem run_urls (w : World γ δ) (s : Service) (history : History) (steps : List Step) :
    (run w s history steps).2.2.filterMap Event.url? =
      history.filterMap Event.url? ++ dueAlong (dueFetch? s.optionsUrl) steps := by
  -- on the steps, for any service and history, since both change on the way
  induction steps generalizing s history with
  | nil => simp [run]
  | cons first steps ih =>
    have hrest := ih (s.after first) (step w s history first).2.2
    rw [(step_history w s history first).1, List.append_assoc] at hrest
    rw [dueAlong_cons]
    simp only [dueFetch?_cons]
    exact hrest

theorem run_calls (w : World γ δ) (s : Service) (history : History) (steps : List Step) :
    (run w s history steps).2.2.filterMap Event.call? =
      history.filterMap Event.call? ++ dueAlong (callInRun? w s history) steps := by
  -- on the steps; the history at a place in the run is made by the steps before
  induction steps generalizing s history with
  | nil => simp [run]
  | cons first steps ih =>
    have hrest := ih (s.after first) (step w s history first).2.2
    rw [(step_history w s history first).2, List.append_assoc] at hrest
    rw [dueAlong_cons]
    simp only [callInRun?_cons]
    exact hrest

/-- Over any run, the URLs fetched are in order those of the steps that need the options and have not
been given them, each the URL set last; the calls of the platform are in order those of the
ceremonies whose options were obtained and negotiated; and at every point the URL is the one set
last. -/
theorem run_history (w : World γ δ) (url : String) (steps : List Step) :
    (run w ⟨url⟩ [] steps).2.2.filterMap Event.url? = dueAlong (dueFetch? url) steps ∧
      (run w ⟨url⟩ [] steps).2.2.filterMap Event.call? =
        dueAlong (fun before =>
          dueCall? w (latestUrl url before) (run w ⟨url⟩ [] before).2.2) steps ∧
      ∀ n, (run w ⟨url⟩ [] (steps.take n)).1.optionsUrl = latestUrl url (steps.take n) := by
  refine ⟨run_urls w ⟨url⟩ [] steps, run_calls w ⟨url⟩ [] steps, ?_⟩
  intro n
  exact run_optionsUrl w ⟨url⟩ [] (steps.take n)

end Service
end CredentialCeremony
