import CredentialCeremony.Options.Caller
import CredentialCeremony.Options.Resolved
import CredentialCeremony.Options.Server

set_option autoImplicit false

/-!
# Negotiation

The options of a ceremony are put together field by field: what the caller sets goes before what
the server says. A registration needs a user from one of them; it asks for the preset keys if the
list it ends with is empty. The demands on the authenticator, the attestation and the extensions
come from the caller alone.

Main statement: a registration is refused exactly if neither side names a user
(`negotiateCreation_eq_none_iff`).
-/

namespace CredentialCeremony

/-- The keys to ask for: the presets stand in for an empty list. -/
def KeyParameters.orPresets (keys : List KeyParameters) : List KeyParameters :=
  if keys.isEmpty then KeyParameters.presets else keys

/-- The options of a registration, unless neither side names a user. -/
def negotiateCreation (caller : CallerCreation) (server : ServerOptions) : Option CreationCall :=
  (caller.user <|> server.user).map fun user =>
    ⟨{ rp := caller.rp.getD server.relyingParty
       user
       challenge := caller.challenge.getD server.challenge
       keyParameters := KeyParameters.orPresets (caller.keyParameters.getD server.keyParameters)
       timeout := caller.timeout <|> server.registrationTimeout
       excludeCredentials := caller.excludeCredentials.getD server.credentials
       authenticatorSelection := caller.authenticatorSelection
       attestation := caller.attestation
       extensions := caller.extensions }⟩

/-- The options of an authentication. -/
def negotiateRequest (caller : CallerRequest) (server : ServerOptions) : RequestCall :=
  ⟨{ challenge := caller.challenge.getD server.challenge
     timeout := caller.timeout <|> server.authenticationTimeout
     rpId := caller.rpId <|> server.relyingParty.id
     allowCredentials := caller.allowCredentials.getD server.credentials
     userVerification := caller.userVerification.getD .preset
     extensions := caller.extensions }⟩

theorem negotiateCreation_eq_none_iff {caller : CallerCreation} {server : ServerOptions} :
    negotiateCreation caller server = none ↔ caller.user = none ∧ server.user = none := by
  unfold negotiateCreation
  cases caller.user <;> simp

end CredentialCeremony
