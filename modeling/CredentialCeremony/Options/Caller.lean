import CredentialCeremony.Entity.Credential

set_option autoImplicit false

/-!
# Options of the caller

Whoever starts a ceremony may set any part of its options; what is set goes before the options of
the server. All fields are optional.
-/

namespace CredentialCeremony

/-- What a caller sets for a registration. -/
structure CallerCreation where
  rp : Option RelyingParty
  user : Option UserAccount
  challenge : Option Bytes
  keyParameters : Option (List KeyParameters)
  timeout : Option UInt32
  excludeCredentials : Option (List CredentialDescriptor)
  authenticatorSelection : Option AuthenticatorSelection
  attestation : Option Attestation
  extensions : Option ExtensionInputs
  deriving DecidableEq

/-- The options of a caller who sets nothing for a registration. -/
def CallerCreation.unset : CallerCreation :=
  ⟨none, none, none, none, none, none, none, none, none⟩

/-- What a caller sets for a registration, in a document. -/
def CallerCreation.schema : Schema CallerCreation :=
  .record
    (.optional "rp" (.nullable RelyingParty.schema) <|
      .optional "user" (.nullable UserAccount.schema) <|
      .optional "challenge" (.nullable .bytes) <|
      .optional "pubKeyCredParams" (.nullable (.list KeyParameters.schema)) <|
      .optional "timeout" (.nullable .word) <|
      .optional "excludeCredentials" (.nullable (.list CredentialDescriptor.schema)) <|
      .optional "authenticatorSelection" (.nullable AuthenticatorSelection.schema) <|
      .optional "attestation" (.nullable (.choice Attestation.names)) <|
      .optional "extensions" (.nullable extensionInputsSchema) <|
      .nil)
    { build := fun (rp, user, challenge, keys, timeout, exclude, selection, attestation,
          extensions, ()) =>
        ⟨rp, user, challenge, keys, timeout, exclude, selection, attestation, extensions⟩
      parts := fun o =>
        (o.rp, o.user, o.challenge, o.keyParameters, o.timeout, o.excludeCredentials,
          o.authenticatorSelection, o.attestation, o.extensions, ()) }

/-- What a caller sets for an authentication. -/
structure CallerRequest where
  challenge : Option Bytes
  timeout : Option UInt32
  rpId : Option String
  allowCredentials : Option (List CredentialDescriptor)
  userVerification : Option UserVerification
  extensions : Option ExtensionInputs
  deriving DecidableEq

/-- The options of a caller who sets nothing for an authentication. -/
def CallerRequest.unset : CallerRequest := ⟨none, none, none, none, none, none⟩

/-- What a caller sets for an authentication, in a document. -/
def CallerRequest.schema : Schema CallerRequest :=
  .record
    (.optional "challenge" (.nullable .bytes) <|
      .optional "timeout" (.nullable .word) <|
      .optional "rpId" (.nullable .string) <|
      .optional "allowCredentials" (.nullable (.list CredentialDescriptor.schema)) <|
      .optional "userVerification" (.nullable (.choice UserVerification.names)) <|
      .optional "extensions" (.nullable extensionInputsSchema) <|
      .nil)
    { build := fun (challenge, timeout, rpId, allow, verification, extensions, ()) =>
        ⟨challenge, timeout, rpId, allow, verification, extensions⟩
      parts := fun o =>
        (o.challenge, o.timeout, o.rpId, o.allowCredentials, o.userVerification, o.extensions,
          ()) }

end CredentialCeremony
