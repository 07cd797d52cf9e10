import CredentialCeremony.Proofs.Negotiation

set_option autoImplicit false

/-!
# Layers of options

Options may be set in layers: what the upper layer leaves open is taken from the lower one. Putting
two layers of a caller over a server is the same as putting the upper one over the server that the
lower one has been put on, if what only a caller can set is handed on to the upper layer
(`negotiateCreation_over`, `negotiateRequest_over`). A ceremony whose options are all set leaves a
server nothing to say (`negotiateCreation_asCaller`, `negotiateRequest_asCaller`).

Main statement: negotiation goes layer by layer, and to negotiate its own result again changes
nothing (`negotiation_layers`).
-/

namespace CredentialCeremony

/-! ## Two layers in one -/

/-- The options of a registration in two layers: the lower one counts for what the upper one leaves
open. -/
def CallerCreation.over (upper lower : CallerCreation) : CallerCreation where
  rp := upper.rp <|> lower.rp
  user := upper.user <|> lower.user
  challenge := upper.challenge <|> lower.challenge
  keyParameters := upper.keyParameters <|> lower.keyParameters
  timeout := upper.timeout <|> lower.timeout
  excludeCredentials := upper.excludeCredentials <|> lower.excludeCredentials
  authenticatorSelection := upper.authenticatorSelection <|> lower.authenticatorSelection
  attestation := upper.attestation <|> lower.attestation
  extensions := upper.extensions <|> lower.extensions

/-- The options of an authentication in two layers: the lower one counts for what the upper one
leaves open. -/
def CallerRequest.over (upper lower : CallerRequest) : CallerRequest where
  challenge := upper.challenge <|> lower.challenge
  timeout := upper.timeout <|> lower.timeout
  rpId := upper.rpId <|> lower.rpId
  allowCredentials := upper.allowCredentials <|> lower.allowCredentials
  userVerification := upper.userVerification <|> lower.userVerification
  extensions := upper.extensions <|> lower.extensions

/-- The upper layer with what no server can set taken from the lower one, where it is left open. -/
def CallerCreation.completedBy (upper lower : CallerCreation) : CallerCreation :=
  { upper with
    authenticatorSelection := upper.authenticatorSelection <|> lower.authenticatorSelection
    attestation := upper.attestation <|> lower.attestation
    extensions := upper.extensions <|> lower.extensions }

/-- The upper layer with what no server can set taken from the lower one, where it is left open. -/
def CallerRequest.completedBy (upper lower : CallerRequest) : CallerRequest :=
  { upper with
    userVerification := upper.userVerification <|> lower.userVerification
    extensions := upper.extensions <|> lower.extensions }

/-- A server that says what the caller sets for a registration, and what it has said before for
everything else. -/
def ServerOptions.patchedForCreation (server : ServerOptions) (caller : CallerCreation) :
    ServerOptions :=
  { server with
    relyingParty := caller.rp.getD server.relyingParty
    user := caller.user <|> server.user
    challenge := caller.challenge.getD server.challenge
    keyParameters := caller.keyParameters.getD server.keyParameters
    registrationTimeout := caller.timeout <|> server.registrationTimeout
    credentials := caller.excludeCredentials.getD server.credentials }

/-- A server that says what the caller sets for an authentication, and what it has said before for
everything else. Of the relying party, only the id is asked for. -/
def ServerOptions.patchedForRequest (server : ServerOptions) (caller : CallerRequest) :
    ServerOptions :=
  { server with
    relyingParty := { server.relyingParty with id := caller.rpId <|> server.relyingParty.id }
    challenge := caller.challenge.getD server.challenge
    authenticationTimeout := caller.timeout <|> server.authenticationTimeout
    credentials := caller.allowCredentials.getD server.credentials }

theorem negotiateCreation_over (upper lower : CallerCreation) (server : ServerOptions) :
    negotiateCreation (upper.over lower) server =
      negotiateCreation (upper.completedBy lower) (server.patchedForCreation lower) := by
  simp only [negotiateCreation, CallerCreation.over, CallerCreation.completedBy,
    ServerOptions.patchedForCreation, Option.orElse_eq_orElse, Option.orElse_eq_or, Option.getD_or,
    Option.or_assoc]

theorem negotiateRequest_over (upper lower : CallerRequest) (server : ServerOptions) :
    negotiateRequest (upper.over lower) server =
      negotiateRequest (upper.completedBy lower) (server.patchedForRequest lower) := by
  simp only [negotiateRequest, CallerRequest.over, CallerRequest.completedBy,
    ServerOptions.patchedForRequest, Option.orElse_eq_orElse, Option.orElse_eq_or, Option.getD_or,
    Option.or_assoc]

/-! ## Negotiated options negotiated again -/

/-- A caller who sets everything as it is in the options of a registration. -/
def CreationOptions.asCaller (o : CreationOptions) : CallerCreation where
  rp := some o.rp
  user := some o.user
  challenge := some o.challenge
  keyParameters := some o.keyParameters
  timeout := o.timeout
  excludeCredentials := some o.excludeCredentials
  authenticatorSelection := o.authenticatorSelection
  attestation := o.attestation
  extensions := o.extensions

/-- A caller who sets everything as it is in the options of an authentication. -/
def RequestOptions.asCaller (o : RequestOptions) : CallerRequest where
  challenge := some o.challenge
  timeout := o.timeout
  rpId := o.rpId
  allowCredentials := some o.allowCredentials
  userVerification := some o.userVerification
  extensions := o.extensions

/-- The server has nothing to add to the options of a registration. -/
def CreationOptions.Exhausts (o : CreationOptions) (server : ServerOptions) : Prop :=
  o.timeout = none → server.registrationTimeout = none

/-- The server has nothing to add to the options of an authentication. -/
structure RequestOptions.Exhausts (o : RequestOptions) (server : ServerOptions) : Prop where
  timeout : o.timeout = none → server.authenticationTimeout = none
  rpId : o.rpId = none → server.relyingParty.id = none

/-- What is set, or left open by the server as well, stands as it is. -/
theorem orElse_eq_left {α : Type} {o served : Option α} (h : o = none → served = none) :
    (o <|> served) = o := by
  cases o with
  | none => exact h rfl
  | some a => rfl

theorem served_eq_none_of_orElse {α : Type} {o served : Option α} (h : (o <|> served) = none) :
    served = none := by
  rw [Option.orElse_eq_orElse, Option.orElse_eq_or, Option.or_eq_none_iff] at h
  exact h.2

/-- A caller who sets everything gets just that, from any server that has nothing to add. -/
theorem negotiateCreation_asCaller {o : CreationOptions} {server : ServerOptions}
    (hkeys : o.keyParameters ≠ []) (hexhausts : o.Exhausts server) :
    negotiateCreation o.asCaller server = some ⟨o⟩ := by
  have htimeout : (o.timeout <|> server.registrationTimeout) = o.timeout := orElse_eq_left hexhausts
  have hpresets : KeyParameters.orPresets o.keyParameters = o.keyParameters :=
    KeyParameters.orPresets_of_ne_nil hkeys
  simp only [negotiateCreation, CreationOptions.asCaller, Option.getD_some, hpresets, htimeout]
  rfl

theorem negotiateRequest_asCaller {o : RequestOptions} {server : ServerOptions}
    (hexhausts : o.Exhausts server) : negotiateRequest o.asCaller server = ⟨o⟩ := by
  simp only [negotiateRequest, RequestOptions.asCaller, Option.getD_some,
    orElse_eq_left hexhausts.timeout, orElse_eq_left hexhausts.rpId]

/-- What is still open after negotiation has been left open by the server. -/
theorem exhausts_of_negotiateCreation {caller : CallerCreation} {server : ServerOptions}
    {call : CreationCall} (h : negotiateCreation caller server = some call) :
    call.publicKey.Exhausts server := by
  obtain ⟨user, -, rfl⟩ := Option.map_eq_some_iff.1 h
  exact served_eq_none_of_orElse

theorem exhausts_of_negotiateRequest (caller : CallerRequest) (server : ServerOptions) :
    (negotiateRequest caller server).publicKey.Exhausts server :=
  ⟨served_eq_none_of_orElse, served_eq_none_of_orElse⟩

/-! ## Layer by layer -/

/-- Two layers of a caller are negotiated as the upper one, completed by what only the lower one sets
for a caller, with a server that the lower one has patched; both sides lack a user or neither does.
Options that have been negotiated are negotiated again without change, with the same server and with
any other that leaves open what they leave open. -/
theorem negotiation_layers :
    (∀ (upper lower : CallerCreation) server, negotiateCreation (upper.over lower) server =
      negotiateCreation (upper.completedBy lower) (server.patchedForCreation lower)) ∧
    (∀ (upper lower : CallerRequest) server, negotiateRequest (upper.over lower) server =
      negotiateRequest (upper.completedBy lower) (server.patchedForRequest lower)) ∧
    (∀ caller server call, negotiateCreation caller server = some call →
      negotiateCreation call.publicKey.asCaller server = some call ∧
        ∀ other, call.publicKey.Exhausts other →
          negotiateCreation call.publicKey.asCaller other = some call) ∧
    (∀ caller server call, negotiateRequest caller server = call →
      negotiateRequest call.publicKey.asCaller server = call ∧
        ∀ other, call.publicKey.Exhausts other →
          negotiateRequest call.publicKey.asCaller other = call) := by
  refine ⟨negotiateCreation_over, negotiateRequest_over, ?_, ?_⟩
  · intro caller server call h
    have hkeys : call.publicKey.keyParameters ≠ [] := by
      rw [keyParameters_of_negotiateCreation h]
      exact KeyParameters.orPresets_ne_nil _
    exact ⟨negotiateCreation_asCaller hkeys (exhausts_of_negotiateCreation h),
      fun other hexhausts => negotiateCreation_asCaller hkeys hexhausts⟩
  · rintro caller server _ rfl
    exact ⟨negotiateRequest_asCaller (exhausts_of_negotiateRequest caller server),
      fun other hexhausts => negotiateRequest_asCaller hexhausts⟩

/-- An empty list of keys in the upper layer hides those of the lower layer and of the server, so that
the presets are asked for. A server with other keys, that leaves the timeout open, has no say when
they are negotiated again. -/
theorem negotiation_layers_of_empty_keys :
    ∃ (upper lower : CallerCreation) (server other : ServerOptions) (call : CreationCall),
      upper.keyParameters = some [] ∧ lower.keyParameters = some [⟨.publicKey, -37⟩] ∧
        other.keyParameters = [⟨.publicKey, -8⟩] ∧ server.user = none ∧
        negotiateCreation (upper.completedBy lower) (server.patchedForCreation lower) = some call ∧
        call.publicKey.keyParameters = KeyParameters.presets ∧
        call.publicKey.attestation = some .direct ∧
        negotiateCreation call.publicKey.asCaller other = some call := by
  have hcall : negotiateCreation
      (CallerCreation.over { CallerCreation.unset with keyParameters := some [] }
        { CallerCreation.unset with
          user := some ⟨[1], "n", "n"⟩
          keyParameters := some [⟨.publicKey, -37⟩]
          attestation := some .direct })
      ⟨⟨none, "E", none⟩, none, [0, 1, 2], [⟨.publicKey, -7⟩], none, some 5, [], .empty⟩ =
    some ⟨⟨⟨none, "E", none⟩, ⟨[1], "n", "n"⟩, [0, 1, 2], KeyParameters.presets, none, [], none,
      some .direct, none⟩⟩ := rfl
  obtain ⟨hover, -, hagain, -⟩ := negotiation_layers
  refine ⟨_, _, _, ⟨⟨none, "E", none⟩, none, [3], [⟨.publicKey, -8⟩], none, none, [], .empty⟩, _,
    rfl, rfl, rfl, rfl, (hover _ _ _).symm.trans hcall, rfl, rfl, ?_⟩
  exact (hagain _ _ _ hcall).2 _ fun _ => rfl

end CredentialCeremony
