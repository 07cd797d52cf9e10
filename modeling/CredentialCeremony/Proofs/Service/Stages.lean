import CredentialCeremony.Proofs.Options.Decoding
import CredentialCeremony.Proofs.Service.Runs
import CredentialCeremony.Proofs.Web.Fetch

set_option autoImplicit false

/-!
# The stages of a ceremony

A ceremony that fetches its options over HTTP passes the stages of the fetch, decodes what was served,
negotiates, and calls the platform. `CeremonyEnds` has one constructor for each stage at which it may
end, for both ceremonies: they differ in whether they need a user, in what they negotiate and in the
call they make.

Main statement: what is seen of a ceremony, which is its ending, the requests it makes and its calls
of the platform, is told by the first stage that fails (`Service.first_failure_decides`).
-/

namespace CredentialCeremony

open Web (Connection Request FetchEnds fetchOptions requestsOf)

variable {γ δ α κ : Type}

/-- The world in which options are fetched over HTTP. What an exchange brings may depend on the whole
history before it, and so may the answers of the platform. -/
def World.overHttp (exchange : History → Connection) (origin : Url)
    (create : History → CreationCall → Except PlatformError γ)
    (get : History → RequestCall → Except PlatformError δ) : World γ δ where
  fetch := fun history url => fetchOptions (exchange history) origin url
  create := create
  get := get

/-- What is seen of a ceremony over HTTP: how it ends, the requests made of the connection, and the
calls of the platform. -/
structure Sight (α : Type) where
  ending : Except CeremonyError α
  requests : List Request
  calls : List NativeCall

/-- What is seen of a ceremony behind a history. -/
def Ceremony.sight (connection : Connection) (origin : Url) (x : Ceremony α) (history : History) :
    Sight α :=
  let events := (x history).2.drop history.length
  { ending := (x history).1
    requests := (events.filterMap Event.url?).flatMap (requestsOf connection origin)
    calls := events.filterMap Event.call? }

section Stages

variable (connection : Connection) (origin : Url) (url : String)
  (userless : ServerOptions → Prop) (negotiated : ServerOptions → Option κ)
  (native : κ → NativeCall) (answer : κ → Except PlatformError α)

/-- What is fetched is decoded as these options of the server. -/
def Obtains (requests : List Request) (server : ServerOptions) : Prop :=
  ∃ wire, FetchEnds connection origin url (.ok wire) requests ∧
    ServerOptions.ofWire wire = .ok server

/-- How a ceremony ends, and what is seen of it up to there. -/
inductive CeremonyEnds : Sight α → Prop
  | unfetched {cause : TransportError} {requests : List Request}
    (failed : FetchEnds connection origin url (.error cause) requests) :
    CeremonyEnds ⟨.error (.transport cause), requests, []⟩
  | undecoded {wire : WireOptions} {field : String} {requests : List Request}
    (passed : FetchEnds connection origin url (.ok wire) requests)
    (failed : FirstUnreadable wire.binaryFields field) :
    CeremonyEnds ⟨.error (.decode ⟨field⟩), requests, []⟩
  | missingUser {server : ServerOptions} {requests : List Request}
    (passed : Obtains connection origin url requests server) (failed : userless server) :
    CeremonyEnds ⟨.error .missingUser, requests, []⟩
  | refused {server : ServerOptions} {call : κ} {e : PlatformError} {requests : List Request}
    (passed : Obtains connection origin url requests server)
    (called : negotiated server = some call) (failed : answer call = .error e) :
    CeremonyEnds ⟨.error (.ceremony e), requests, [native call]⟩
  | completed {server : ServerOptions} {call : κ} {credential : α} {requests : List Request}
    (passed : Obtains connection origin url requests server)
    (called : negotiated server = some call) (answered : answer call = .ok credential) :
    CeremonyEnds ⟨.ok credential, requests, [native call]⟩

end Stages

/-- Every ceremony ends at a stage. -/
theorem exists_ceremonyEnds (connection : Connection) (origin : Url) (url : String)
    {userless : ServerOptions → Prop} {negotiated : ServerOptions → Option κ}
    (hnone : ∀ server, negotiated server = none ↔ userless server) (native : κ → NativeCall)
    (answer : κ → Except PlatformError α) :
    ∃ sight, CeremonyEnds connection origin url userless negotiated native answer sight := by
  obtain ⟨outcome, requests, hends⟩ := Web.exists_fetchEnds connection origin url
  cases outcome with
  | error cause => exact ⟨_, .unfetched hends⟩
  | ok wire =>
    cases hdecoded : ServerOptions.ofWire wire with
    | error e =>
      have hfirst : FirstUnreadable wire.binaryFields e.field :=
        (ServerOptions.ofWire_along wire).eq_error_iff.1 hdecoded
      exact ⟨_, .undecoded hends hfirst⟩
    | ok server =>
      have obtained : Obtains connection origin url requests server := ⟨wire, hends, hdecoded⟩
      cases hcall : negotiated server with
      | none => exact ⟨_, .missingUser obtained ((hnone server).1 hcall)⟩
      | some call =>
        cases hanswer : answer call with
        | error e => exact ⟨_, .refused obtained hcall hanswer⟩
        | ok credential => exact ⟨_, .completed obtained hcall hanswer⟩

variable {connection : Connection} {origin : Url} {url : String}
  {userless : ServerOptions → Prop} {negotiated : ServerOptions → Option κ}
  {native : κ → NativeCall} {platform : History → κ → Except PlatformError α}

theorem Ceremony.sight_of_eq {x : Ceremony α} {history events : History}
    {ending : Except CeremonyError α} (h : x history = (ending, history ++ events)) :
    Ceremony.sight connection origin x history =
      ⟨ending, (events.filterMap Event.url?).flatMap (requestsOf connection origin),
        events.filterMap Event.call?⟩ := by
  rw [Ceremony.sight, h, List.drop_left]

/-- What stands behind the options of a ceremony: a negotiation and, if that succeeds, one call of
the platform, which answers to the history in front. -/
structure Calls (behind : ServerOptions → Ceremony α) (userless : ServerOptions → Prop)
    (negotiated : ServerOptions → Option κ) (native : κ → NativeCall)
    (platform : History → κ → Except PlatformError α) : Prop where
  none_iff : ∀ server, negotiated server = none ↔ userless server
  of_none : ∀ {server}, negotiated server = none → ∀ before,
    behind server before = (.error .missingUser, before)
  of_some : ∀ {server call}, negotiated server = some call → ∀ before, ∃ events,
    behind server before = ((platform before call).mapError .ceremony, before ++ events) ∧
      events.filterMap Event.url? = [] ∧ events.filterMap Event.call? = [native call]

namespace Service

open Ceremony

variable {w : World γ δ} {s : Service} {history : History}

section Behind

variable {behind : ServerOptions → Ceremony α}

/-- Without options, nothing behind the fetch is seen. -/
theorem sight_of_error {e : CeremonyError} (h : (fetchServerOptions w s history).1 = .error e) :
    Ceremony.sight connection origin (do behind (← resolve w s none)) history =
      ⟨.error e, requestsOf connection origin s.optionsUrl, []⟩ := by
  obtain ⟨events, outcome, heq, hurls, hcalls, -⟩ := fetchServerOptions_makes w s history
  rw [heq] at h
  cases h
  have hall : (do behind (← resolve w s none) : Ceremony α) history =
      (.error e, history ++ events) := by
    rw [resolve_none, bind_apply, heq]
  rw [sight_of_eq hall, hurls, hcalls, List.flatMap_singleton]

/-- With options, what stands behind the fetch is seen from the history that the fetch leaves. -/
theorem sight_of_ok {server : ServerOptions}
    (hcalls : Calls behind userless negotiated native platform)
    (h : (fetchServerOptions w s history).1 = .ok server) :
    Ceremony.sight connection origin (do behind (← resolve w s none)) history =
      match negotiated server with
      | none => ⟨.error .missingUser, requestsOf connection origin s.optionsUrl, []⟩
      | some call =>
        ⟨(platform (fetchServerOptions w s history).2 call).mapError .ceremony,
          requestsOf connection origin s.optionsUrl, [native call]⟩ := by
  obtain ⟨events, outcome, heq, hurls, hnone, -⟩ := fetchServerOptions_makes w s history
  rw [heq] at h ⊢
  cases h
  have hall : (do behind (← resolve w s none) : Ceremony α) history =
      behind server (history ++ events) := by
    rw [resolve_none, bind_apply, heq]
  cases hcall : negotiated server with
  | none =>
    rw [hcalls.of_none hcall] at hall
    rw [sight_of_eq hall, hurls, hnone, List.flatMap_singleton]
  | some call =>
    obtain ⟨more, hmore, hmoreUrls, hmoreCalls⟩ := hcalls.of_some hcall (history ++ events)
    rw [hmore, List.append_assoc] at hall
    rw [sight_of_eq hall, List.filterMap_append, List.filterMap_append, hurls, hnone, hmoreUrls,
      hmoreCalls, List.append_nil, List.nil_append, List.flatMap_singleton]

variable (hfetch : (w.fetch (history ++ [.logged (.fetching s.optionsUrl)]) s.optionsUrl) =
  fetchOptions connection origin s.optionsUrl)
include hfetch

/-- The options are those that what is fetched is decoded as. -/
theorem outcome_of_obtains {requests : List Request} {server : ServerOptions}
    (h : Obtains connection origin s.optionsUrl requests server) :
    (fetchServerOptions w s history).1 = .ok server ∧
      requestsOf connection origin s.optionsUrl = requests := by
  obtain ⟨wire, hends, hdecoded⟩ := h
  obtain ⟨houtcome, hrequests⟩ := Web.fetchEnds_iff.1 hends
  rw [fetchServerOptions_outcome, hfetch, houtcome, optionsOf, hdecoded]
  exact ⟨rfl, hrequests⟩

/-- A ceremony ends in no other way than its stages tell. -/
theorem sight_of_ceremonyEnds (hcalls : Calls behind userless negotiated native platform)
    {sight : Sight α}
    (h : CeremonyEnds connection origin s.optionsUrl userless negotiated native
      (platform (fetchServerOptions w s history).2) sight) :
    Ceremony.sight connection origin (do behind (← resolve w s none)) history = sight := by
  cases h with
  | unfetched failed =>
    obtain ⟨houtcome, rfl⟩ := Web.fetchEnds_iff.1 failed
    refine sight_of_error ?_
    rw [fetchServerOptions_outcome, hfetch, houtcome, optionsOf]
  | @undecoded wire field requests passed failed =>
    obtain ⟨houtcome, rfl⟩ := Web.fetchEnds_iff.1 passed
    have hdecode : ServerOptions.ofWire wire = .error ⟨field⟩ :=
      (ServerOptions.ofWire_along wire).eq_error_iff.2 failed
    refine sight_of_error ?_
    rw [fetchServerOptions_outcome, hfetch, houtcome, optionsOf, hdecode]
    rfl
  | missingUser passed failed =>
    obtain ⟨houtcome, rfl⟩ := outcome_of_obtains hfetch passed
    rw [sight_of_ok hcalls houtcome, (hcalls.none_iff _).2 failed]
  | refused passed called failed =>
    obtain ⟨houtcome, rfl⟩ := outcome_of_obtains hfetch passed
    rw [sight_of_ok hcalls houtcome, called]
    dsimp only
    rw [failed]
    rfl
  | completed passed called answered =>
    obtain ⟨houtcome, rfl⟩ := outcome_of_obtains hfetch passed
    rw [sight_of_ok hcalls houtcome, called]
    dsimp only
    rw [answered]
    rfl

/-- A ceremony is seen as told by the first stage that fails, and in no other way. -/
theorem ceremonyEnds_iff (hcalls : Calls behind userless negotiated native platform)
    {sight : Sight α} :
    CeremonyEnds connection origin s.optionsUrl userless negotiated native
        (platform (fetchServerOptions w s history).2) sight ↔
      Ceremony.sight connection origin (do behind (← resolve w s none)) history = sight := by
  constructor
  · intro h
    exact sight_of_ceremonyEnds hfetch hcalls h
  · rintro rfl
    obtain ⟨seen, hends⟩ := exists_ceremonyEnds connection origin s.optionsUrl hcalls.none_iff
      native (platform (fetchServerOptions w s history).2)
    rw [sight_of_ceremonyEnds hfetch hcalls hends]
    exact hends

end Behind

/-- A registration needs a user, and creates a credential. -/
theorem register_calls (w : World γ δ) (caller : CallerCreation) :
    Calls (register w caller) (fun server => caller.user = none ∧ server.user = none)
      (negotiateCreation caller) .create
      (fun before call => w.create (before ++ [.logged (.creating call.publicKey.rp.id)]) call) where
  none_iff _ := negotiateCreation_eq_none_iff
  of_none := by
    intro server hnone before
    rw [register, hnone]
    rfl
  of_some := by
    intro server call hcall before
    rw [register, hcall]
    exact ⟨_, call_apply _ (.created call) (fun seen => w.create seen call) before, rfl, rfl⟩

/-- An authentication needs no user, and gets an assertion. -/
theorem authenticate_calls (w : World γ δ) (caller : CallerRequest) :
    Calls (authenticate w caller) (fun _ => False)
      (fun server => some (negotiateRequest caller server)) .get
      (fun before call => w.get (before ++ [.logged (.requesting call.publicKey.rpId)]) call) where
  none_iff _ := by simp
  of_none := by
    intro server hnone before
    cases hnone
  of_some := by
    intro server call hcall before
    cases hcall
    exact ⟨_, call_apply _ (.requested _) (fun seen => w.get seen (negotiateRequest caller server))
      before, rfl, rfl⟩

/-- Over HTTP, a registration and an authentication that fetch their options end at the first stage
that fails: the URL, the request, the status of the answer, its body on the way, its body as a
document, its binary values, for a registration the user, and the platform. Behind that stage nothing
is asked for: no request is made for a URL that is not resolved, and the platform is called exactly
if all stages before are passed. If none fails, the ceremony ends with the credential. -/
theorem first_failure_decides (exchange : History → Connection) (origin : Url)
    (create : History → CreationCall → Except PlatformError γ)
    (get : History → RequestCall → Except PlatformError δ) (s : Service) (history : History)
    (caller : CallerCreation) (asking : CallerRequest) :
    let w := World.overHttp exchange origin create get
    let connection := exchange (history ++ [.logged (.fetching s.optionsUrl)])
    let fetched := (fetchServerOptions w s history).2
    (∀ sight, CeremonyEnds connection origin s.optionsUrl
        (fun server => caller.user = none ∧ server.user = none) (negotiateCreation caller) .create
        (fun call => create (fetched ++ [.logged (.creating call.publicKey.rp.id)]) call) sight ↔
      Ceremony.sight connection origin (createCredential w s caller none) history = sight) ∧
    (∀ sight, CeremonyEnds connection origin s.optionsUrl
        (fun _ => False) (fun server => some (negotiateRequest asking server)) .get
        (fun call => get (fetched ++ [.logged (.requesting call.publicKey.rpId)]) call) sight ↔
      Ceremony.sight connection origin (getCredential w s asking none) history = sight) := by
  intro w connection fetched
  constructor
  · intro sight
    exact ceremonyEnds_iff rfl (register_calls w caller)
  · intro sight
    exact ceremonyEnds_iff rfl (authenticate_calls w asking)

end Service
end CredentialCeremony
