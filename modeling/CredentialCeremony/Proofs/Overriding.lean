import CredentialCeremony.Proofs.Negotiation

set_option autoImplicit false

/-!
# What a caller hides of the server

A field that the caller sets hides that of the server. Of two servers, a ceremony therefore sees only
where they differ in a field that it asks for and the caller leaves open, and it does see that: the
negotiated options of an authentication are the same for both exactly if they agree in these fields
(`negotiateRequest_eq_iff`), and those of a registration exactly if they do once the presets stand in
for an empty list of keys, or if nobody names a user (`negotiateCreation_eq_iff`).

Main statement: `overridden_options_hidden`.
-/

namespace CredentialCeremony

/-! ## One field -/

section Field

variable {α : Type} {set : Option α}

/-- What stands in for a value that is not set is seen exactly if the value is not set. -/
theorem getD_eq_getD_iff {a b : α} : set.getD a = set.getD b ↔ (set = none → a = b) := by
  cases set <;> simp

theorem orElse_eq_orElse_iff {a b : Option α} :
    (set <|> a) = (set <|> b) ↔ (set = none → a = b) := by
  cases set <;> simp

end Field

/-! ## Agreement of two servers -/

/-- Two servers say the same wherever a registration asks for it and the caller leaves it open. -/
structure ServerOptions.AgreeForCreation (caller : CallerCreation) (s₁ s₂ : ServerOptions) :
    Prop where
  relyingParty : caller.rp = none → s₁.relyingParty = s₂.relyingParty
  user : caller.user = none → s₁.user = s₂.user
  challenge : caller.challenge = none → s₁.challenge = s₂.challenge
  keyParameters : caller.keyParameters = none → s₁.keyParameters = s₂.keyParameters
  registrationTimeout : caller.timeout = none → s₁.registrationTimeout = s₂.registrationTimeout
  credentials : caller.excludeCredentials = none → s₁.credentials = s₂.credentials

/-- Two servers say the same wherever an authentication asks for it and the caller leaves it open. -/
structure ServerOptions.AgreeForRequest (caller : CallerRequest) (s₁ s₂ : ServerOptions) :
    Prop where
  challenge : caller.challenge = none → s₁.challenge = s₂.challenge
  authenticationTimeout : caller.timeout = none →
    s₁.authenticationTimeout = s₂.authenticationTimeout
  rpId : caller.rpId = none → s₁.relyingParty.id = s₂.relyingParty.id
  credentials : caller.allowCredentials = none → s₁.credentials = s₂.credentials

/-- A server that lists the presets where it lists no keys. -/
def ServerOptions.withPresets (s : ServerOptions) : ServerOptions :=
  { s with keyParameters := KeyParameters.orPresets s.keyParameters }

theorem ServerOptions.AgreeForCreation.withPresets {caller : CallerCreation}
    {s₁ s₂ : ServerOptions} (h : AgreeForCreation caller s₁ s₂) :
    AgreeForCreation caller s₁.withPresets s₂.withPresets where
  relyingParty := h.relyingParty
  user := h.user
  challenge := h.challenge
  keyParameters := fun hopen => congrArg KeyParameters.orPresets (h.keyParameters hopen)
  registrationTimeout := h.registrationTimeout
  credentials := h.credentials

/-- Neither the caller nor the server names a user. -/
def Nameless (caller : CallerCreation) (server : ServerOptions) : Prop :=
  caller.user = none ∧ server.user = none

/-! ## What is seen of two servers -/

variable {s₁ s₂ : ServerOptions}

theorem orPresets_getD_eq_iff {set : Option (List KeyParameters)} {a b : List KeyParameters} :
    KeyParameters.orPresets (set.getD a) = KeyParameters.orPresets (set.getD b) ↔
      (set = none → KeyParameters.orPresets a = KeyParameters.orPresets b) := by
  cases set <;> simp

/-- An authentication sees two servers alike exactly if they agree. -/
theorem negotiateRequest_eq_iff {caller : CallerRequest} :
    negotiateRequest caller s₁ = negotiateRequest caller s₂ ↔
      ServerOptions.AgreeForRequest caller s₁ s₂ := by
  simp only [negotiateRequest, RequestCall.mk.injEq, RequestOptions.mk.injEq, getD_eq_getD_iff,
    orElse_eq_orElse_iff, and_true]
  constructor
  · rintro ⟨hchallenge, htimeout, hid, hcredentials⟩
    exact ⟨hchallenge, htimeout, hid, hcredentials⟩
  · rintro ⟨hchallenge, htimeout, hid, hcredentials⟩
    exact ⟨hchallenge, htimeout, hid, hcredentials⟩

/-- A registration sees two servers alike exactly if they agree once the presets stand in for an empty
list, or if it is refused with both. -/
theorem negotiateCreation_eq_iff {caller : CallerCreation} :
    negotiateCreation caller s₁ = negotiateCreation caller s₂ ↔
      (Nameless caller s₁ ∧ Nameless caller s₂) ∨
        ServerOptions.AgreeForCreation caller s₁.withPresets s₂.withPresets := by
  have husers : (caller.user <|> s₁.user) = (caller.user <|> s₂.user) ↔
      (caller.user = none → s₁.user = s₂.user) := orElse_eq_orElse_iff
  constructor
  · intro h
    cases h₁ : negotiateCreation caller s₁ with
    | none =>
      exact .inl ⟨negotiateCreation_eq_none_iff.1 h₁, negotiateCreation_eq_none_iff.1 (h ▸ h₁)⟩
    | some call =>
      obtain ⟨user₁, huser₁, rfl⟩ := Option.map_eq_some_iff.1 h₁
      obtain ⟨user₂, huser₂, heq⟩ := Option.map_eq_some_iff.1 (h ▸ h₁)
      simp only [CreationCall.mk.injEq, CreationOptions.mk.injEq, getD_eq_getD_iff,
        orPresets_getD_eq_iff, orElse_eq_orElse_iff, and_true] at heq
      obtain ⟨hrp, rfl, hchallenge, hkeys, htimeout, hcredentials⟩ := heq
      refine .inr ⟨?_, husers.1 (huser₁.trans huser₂.symm), ?_, ?_, ?_, ?_⟩
      · exact fun hopen => (hrp hopen).symm
      · exact fun hopen => (hchallenge hopen).symm
      · exact fun hopen => (hkeys hopen).symm
      · exact fun hopen => (htimeout hopen).symm
      · exact fun hopen => (hcredentials hopen).symm
  · rintro (⟨hnameless₁, hnameless₂⟩ | h)
    · rw [negotiateCreation_eq_none_iff.2 hnameless₁, negotiateCreation_eq_none_iff.2 hnameless₂]
    · have hrp : caller.rp.getD s₁.relyingParty = caller.rp.getD s₂.relyingParty :=
        getD_eq_getD_iff.2 h.relyingParty
      have hchallenge : caller.challenge.getD s₁.challenge = caller.challenge.getD s₂.challenge :=
        getD_eq_getD_iff.2 h.challenge
      have hkeys := orPresets_getD_eq_iff.2 h.keyParameters
      have htimeout : (caller.timeout <|> s₁.registrationTimeout) =
          (caller.timeout <|> s₂.registrationTimeout) := orElse_eq_orElse_iff.2 h.registrationTimeout
      have hcredentials : caller.excludeCredentials.getD s₁.credentials =
          caller.excludeCredentials.getD s₂.credentials := getD_eq_getD_iff.2 h.credentials
      simp only [negotiateCreation, husers.2 h.user, hrp, hchallenge, hkeys, htimeout, hcredentials]

/-! ## Lists of credentials -/

theorem excludeCredentials_of_negotiateCreation {caller : CallerCreation} {server : ServerOptions}
    {call : CreationCall} (h : negotiateCreation caller server = some call) :
    call.publicKey.excludeCredentials = caller.excludeCredentials.getD server.credentials := by
  obtain ⟨user, -, rfl⟩ := Option.map_eq_some_iff.1 h
  rfl

/-- The list is that of the caller as it is, be it empty, or else that of the server as it is. -/
theorem getD_eq_either {α : Type} (set : Option α) (served : α) :
    (∀ own, set = some own → set.getD served = own) ∧ (set = none → set.getD served = served) := by
  cases set <;> simp

/-! ## Nothing leaks -/

/-- Two servers that agree where a ceremony asks them and the caller leaves it open lead to the same
outcome, whether it is refused or not. The parameters and the timeout of the other ceremony are never
asked for, nor are in an authentication the user, the keys, and the name and icon of the relying
party. The excluded or allowed credentials are all those of the caller, if it lists any or none at
all, or else all those of the server. -/
theorem overridden_options_hidden :
    (∀ caller s₁ s₂, ServerOptions.AgreeForCreation caller s₁ s₂ →
      negotiateCreation caller s₁ = negotiateCreation caller s₂) ∧
    (∀ caller s₁ s₂, ServerOptions.AgreeForRequest caller s₁ s₂ →
      negotiateRequest caller s₁ = negotiateRequest caller s₂) ∧
    (∀ caller (server : ServerOptions) authenticationTimeout parameters,
      negotiateCreation caller { server with authenticationTimeout, parameters } =
        negotiateCreation caller server) ∧
    (∀ caller (server : ServerOptions) user keyParameters name icon registrationTimeout parameters,
      negotiateRequest caller { server with
        relyingParty := { server.relyingParty with name, icon }
        user, keyParameters, registrationTimeout, parameters } =
          negotiateRequest caller server) ∧
    (∀ caller server call, negotiateCreation caller server = some call →
      (∀ own, caller.excludeCredentials = some own → call.publicKey.excludeCredentials = own) ∧
        (caller.excludeCredentials = none →
          call.publicKey.excludeCredentials = server.credentials)) ∧
    ∀ caller server,
      (∀ own, caller.allowCredentials = some own →
        (negotiateRequest caller server).publicKey.allowCredentials = own) ∧
      (caller.allowCredentials = none →
        (negotiateRequest caller server).publicKey.allowCredentials = server.credentials) := by
  refine ⟨?_, ?_, ?_, ?_, ?_, ?_⟩
  · intro caller s₁ s₂ h
    exact negotiateCreation_eq_iff.2 (.inr h.withPresets)
  · intro caller s₁ s₂ h
    exact negotiateRequest_eq_iff.2 h
  · intro caller server timeout parameters
    refine negotiateCreation_eq_iff.2 (.inr ?_)
    constructor <;> exact fun _ => rfl
  · intro caller server user keys name icon timeout parameters
    refine negotiateRequest_eq_iff.2 ?_
    constructor <;> exact fun _ => rfl
  · intro caller server call h
    rw [excludeCredentials_of_negotiateCreation h]
    exact getD_eq_either _ _
  · intro caller server
    exact getD_eq_either _ _

/-- A caller who sets a challenge and excludes nothing is refused or served alike with two servers
that differ in both, and the credentials of neither are excluded; one who leaves the list open
excludes all of the server. -/
theorem overridden_options_hidden_of_empty_list :
    ∃ (caller : CallerCreation) (request : CallerRequest) (s₁ s₂ : ServerOptions)
      (user : UserAccount) (call all : CreationCall),
      s₁.challenge ≠ s₂.challenge ∧ s₁.credentials ≠ s₂.credentials ∧
      s₁.parameters ≠ s₂.parameters ∧
      negotiateCreation caller s₁ = negotiateCreation caller s₂ ∧
      negotiateCreation caller s₁ = none ∧
      negotiateCreation caller { s₁ with user } = negotiateCreation caller { s₂ with user } ∧
      negotiateCreation caller { s₁ with user } = some call ∧
      call.publicKey.excludeCredentials = [] ∧
      negotiateCreation .unset { s₁ with user } = some all ∧
      all.publicKey.excludeCredentials = s₁.credentials ∧
      negotiateRequest request s₁ = negotiateRequest request s₂ ∧
      (negotiateRequest request s₁).publicKey.allowCredentials = [] ∧
      (negotiateRequest .unset s₁).publicKey.allowCredentials = s₁.credentials := by
  obtain ⟨hcreation, hrequest, -, -, hexcluded, hallowed⟩ := overridden_options_hidden
  let caller : CallerCreation :=
    { CallerCreation.unset with challenge := some [7], excludeCredentials := some [] }
  let request : CallerRequest :=
    { CallerRequest.unset with challenge := some [7], allowCredentials := some [] }
  let s₁ : ServerOptions :=
    ⟨⟨none, "E", none⟩, none, [0], [], none, none, [⟨.publicKey, [1], none⟩], .empty⟩
  let s₂ : ServerOptions :=
    ⟨⟨none, "E", none⟩, none, [1], [], none, none, [⟨.publicKey, [2], none⟩],
      Dictionary.ofList [("a", "b")]⟩
  let user : UserAccount := ⟨[3], "n", "n"⟩
  have hcall : negotiateCreation caller { s₁ with user } = some _ := rfl
  have hall : negotiateCreation .unset { s₁ with user } = some _ := rfl
  refine ⟨caller, request, s₁, s₂, user, _, _, by decide, by decide, by decide, ?_, rfl, ?_, hcall,
    ?_, hall, ?_, ?_, ?_, ?_⟩
  · exact hcreation caller s₁ s₂ ⟨fun _ => rfl, fun _ => rfl, nofun, fun _ => rfl, fun _ => rfl, nofun⟩
  · exact hcreation caller _ _ ⟨fun _ => rfl, fun _ => rfl, nofun, fun _ => rfl, fun _ => rfl, nofun⟩
  · exact (hexcluded caller _ _ hcall).1 [] rfl
  · exact (hexcluded .unset _ _ hall).2 rfl
  · exact hrequest request s₁ s₂ ⟨nofun, fun _ => rfl, fun _ => rfl, nofun⟩
  · exact (hallowed request s₁).1 [] rfl
  · exact (hallowed .unset s₁).2 rfl

end CredentialCeremony
