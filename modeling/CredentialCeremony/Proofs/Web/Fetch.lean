import CredentialCeremony.Web.Fetch

set_option autoImplicit false

/-!
# How a fetch ends

A fetch of the options passes stages: the URL is resolved, the request is answered, the answer is one
of success, its body arrives, and the body is read. `FetchEnds` has one constructor for each stage at
which a fetch may end. To tell which requests are made on the way, a fetch is run over a connection
that keeps them (`fetchThrough`); what it answers is what the fetch itself answers
(`fetchThrough_recording`).

Main statement: a fetch ends at the first stage that fails, and a request is made exactly if the URL
is resolved (`fetchEnds_iff`).
-/

namespace CredentialCeremony.Web

/-! ## Requests on the way -/

/-- A fetch over a connection that may do more than answer. -/
def fetchThrough {m : Type → Type} [Monad m] (send : Request → m (Except String Response))
    (origin : Url) (url : String) : m FetchAnswer :=
  match request? origin url with
  | none => return ⟨[], .error (.invalidUrl url)⟩
  | some request => do
    match ← send request with
    | .error message => return ⟨[], .error (.network message)⟩
    | .ok response => return readResponse response

/-- The connection that keeps the requests made of it. -/
def Connection.recording (connection : Connection) :
    Request → StateM (List Request) (Except String Response) :=
  fun request requests => (connection request, requests ++ [request])

/-- The requests that a fetch makes of its connection. -/
def requestsOf (connection : Connection) (origin : Url) (url : String) : List Request :=
  (fetchThrough connection.recording origin url []).2

variable {connection : Connection} {origin : Url} {url : String}

/-- Keeping the requests changes no answer. -/
theorem fetchThrough_recording (requests : List Request) :
    fetchThrough connection.recording origin url requests =
      (fetchOptions connection origin url, requests ++ (request? origin url).toList) := by
  unfold fetchThrough fetchOptions
  cases request? origin url with
  | none => rw [Option.toList_none, List.append_nil]; rfl
  | some request =>
    dsimp only [Option.toList_some]
    change StateT.bind (connection.recording request) _ requests = _
    unfold StateT.bind Connection.recording
    cases connection request <;> rfl

theorem requestsOf_eq : requestsOf connection origin url = (request? origin url).toList := by
  rw [requestsOf, fetchThrough_recording, List.nil_append]

/-! ## Stages -/

/-- The URL is resolved, and this is the request for it. -/
def Resolves (origin : Url) (url : String) (request : Request) : Prop :=
  ∃ target, origin.join? url = some target ∧ request = ⟨target, "application/json"⟩

/-- The request is answered. -/
def Responds (connection : Connection) (origin : Url) (url : String) (request : Request)
    (response : Response) : Prop :=
  Resolves origin url request ∧ connection request = .ok response

/-- The answer is one of success. -/
def Succeeds (connection : Connection) (origin : Url) (url : String) (request : Request)
    (response : Response) : Prop :=
  Responds connection origin url request response ∧ 200 ≤ response.status ∧ response.status ≤ 299

/-- The body of an answer of success arrives. -/
def Delivers (connection : Connection) (origin : Url) (url : String) (request : Request)
    (body : Bytes) : Prop :=
  ∃ response, Succeeds connection origin url request response ∧ response.body = .ok body

/-- How a fetch ends, and with which requests made. -/
inductive FetchEnds (connection : Connection) (origin : Url) (url : String) :
    Except TransportError WireOptions → List Request → Prop
  | unresolved (failed : origin.join? url = none) :
    FetchEnds connection origin url (.error (.invalidUrl url)) []
  | unanswered {request : Request} {message : String} (passed : Resolves origin url request)
    (failed : connection request = .error message) :
    FetchEnds connection origin url (.error (.network message)) [request]
  | refused {request : Request} {response : Response}
    (passed : Responds connection origin url request response)
    (failed : ¬ (200 ≤ response.status ∧ response.status ≤ 299)) :
    FetchEnds connection origin url (.error (.status response.status)) [request]
  | broken {request : Request} {response : Response} {message : String}
    (passed : Succeeds connection origin url request response)
    (failed : response.body = .error message) :
    FetchEnds connection origin url (.error (.network message)) [request]
  | unreadable {request : Request} {body : Bytes} {e : ReadError}
    (passed : Delivers connection origin url request body)
    (failed : (WireOptions.schema.readText body).outcome = .error e) :
    FetchEnds connection origin url (.error (.body (bodyMessage e))) [request]
  | read {request : Request} {body : Bytes} {wire : WireOptions}
    (passed : Delivers connection origin url request body)
    (completed : (WireOptions.schema.readText body).outcome = .ok wire) :
    FetchEnds connection origin url (.ok wire) [request]

theorem resolves_iff {request : Request} :
    Resolves origin url request ↔ request? origin url = some request := by
  rw [request?, Option.map_eq_some_iff]
  constructor
  · rintro ⟨target, htarget, rfl⟩
    exact ⟨target, htarget, rfl⟩
  · rintro ⟨target, htarget, rfl⟩
    exact ⟨target, htarget, rfl⟩

theorem readResponse_of_failure {response : Response}
    (h : ¬ (200 ≤ response.status ∧ response.status ≤ 299)) :
    (readResponse response).outcome = .error (.status response.status) := by
  rw [readResponse, if_pos (by rwa [isSuccess_iff])]

/-- An answer of success is decided by its body. -/
theorem readResponse_of_success {response : Response}
    (h : 200 ≤ response.status ∧ response.status ≤ 299) :
    (readResponse response).outcome =
      match response.body with
      | .error message => .error (.network message)
      | .ok body => (WireOptions.schema.readText body).outcome.mapError fun e =>
        .body (bodyMessage e) := by
  rw [readResponse, if_neg (by rw [isSuccess_iff]; exact not_not_intro h)]
  cases response.body with
  | error message => rfl
  | ok body => cases hread : (WireOptions.schema.readText body).outcome <;> simp [hread] <;> rfl

theorem fetchOptions_of_responds {request : Request} {response : Response}
    (h : Responds connection origin url request response) :
    fetchOptions connection origin url = readResponse response := by
  rw [fetchOptions, resolves_iff.1 h.1]
  dsimp only
  rw [h.2]

variable {outcome : Except TransportError WireOptions} {requests : List Request}

/-- A fetch ends in no other way than its stages tell. -/
theorem FetchEnds.eq (h : FetchEnds connection origin url outcome requests) :
    (fetchOptions connection origin url).outcome = outcome ∧
      (request? origin url).toList = requests := by
  cases h with
  | unresolved failed =>
    rw [fetchOptions_of_join?_eq_none failed, request?, failed]
    exact ⟨rfl, rfl⟩
  | unanswered passed failed =>
    rw [fetchOptions, resolves_iff.1 passed]
    dsimp only
    rw [failed]
    exact ⟨rfl, rfl⟩
  | refused passed failed =>
    rw [fetchOptions_of_responds passed, readResponse_of_failure failed, resolves_iff.1 passed.1]
    exact ⟨rfl, rfl⟩
  | broken passed failed =>
    obtain ⟨answered, success⟩ := passed
    rw [fetchOptions_of_responds answered, readResponse_of_success success, failed,
      resolves_iff.1 answered.1]
    exact ⟨rfl, rfl⟩
  | unreadable passed failed =>
    obtain ⟨response, ⟨answered, success⟩, hbody⟩ := passed
    rw [fetchOptions_of_responds answered, readResponse_of_success success, hbody,
      resolves_iff.1 answered.1]
    dsimp only
    rw [failed]
    exact ⟨rfl, rfl⟩
  | read passed completed =>
    obtain ⟨response, ⟨answered, success⟩, hbody⟩ := passed
    rw [fetchOptions_of_responds answered, readResponse_of_success success, hbody,
      resolves_iff.1 answered.1]
    dsimp only
    rw [completed]
    exact ⟨rfl, rfl⟩

/-- Behind an answer, one of the last four stages is the first that fails, or none is. -/
theorem fetchEnds_of_responds {request : Request} {response : Response}
    (h : Responds connection origin url request response) :
    ∃ outcome, FetchEnds connection origin url outcome [request] := by
  by_cases success : 200 ≤ response.status ∧ response.status ≤ 299
  · cases hbody : response.body with
    | error message => exact ⟨_, .broken ⟨h, success⟩ hbody⟩
    | ok body =>
      have delivered : Delivers connection origin url request body :=
        ⟨response, ⟨h, success⟩, hbody⟩
      cases hread : (WireOptions.schema.readText body).outcome with
      | error e => exact ⟨_, .unreadable delivered hread⟩
      | ok wire => exact ⟨_, .read delivered hread⟩
  · exact ⟨_, .refused h success⟩

/-- Every fetch ends at a stage. -/
theorem exists_fetchEnds (connection : Connection) (origin : Url) (url : String) :
    ∃ outcome requests, FetchEnds connection origin url outcome requests := by
  cases hresolved : request? origin url with
  | none => exact ⟨_, _, .unresolved (Option.map_eq_none_iff.1 hresolved)⟩
  | some request =>
    have passed : Resolves origin url request := resolves_iff.2 hresolved
    cases hanswered : connection request with
    | error message => exact ⟨_, _, .unanswered passed hanswered⟩
    | ok response =>
      obtain ⟨outcome, hends⟩ := fetchEnds_of_responds ⟨passed, hanswered⟩
      exact ⟨outcome, _, hends⟩

/-- A fetch ends as told by the first stage that fails, and in no other way; it makes one request if
the URL is resolved and else none. -/
theorem fetchEnds_iff :
    FetchEnds connection origin url outcome requests ↔
      (fetchOptions connection origin url).outcome = outcome ∧
        requestsOf connection origin url = requests := by
  rw [requestsOf_eq]
  constructor
  · intro h
    exact h.eq
  · rintro ⟨rfl, rfl⟩
    obtain ⟨outcome, requests, hends⟩ := exists_fetchEnds connection origin url
    rw [hends.eq.1, hends.eq.2]
    exact hends

end CredentialCeremony.Web
