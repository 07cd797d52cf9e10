import CredentialCeremony.Entity.Credential

set_option autoImplicit false

/-!
# Options handed to the platform

The fully resolved options of a ceremony. `CreationCall` and `RequestCall` are the arguments of the
platform's two calls; they mark the options as those of a public-key credential.
-/

namespace CredentialCeremony

/-- The options of a registration. -/
structure CreationOptions where
  rp : RelyingParty
  user : UserAccount
  challenge : Bytes
  keyParameters : List KeyParameters
  timeout : Option UInt32
  excludeCredentials : List CredentialDescriptor
  authenticatorSelection : Option AuthenticatorSelection
  attestation : Option Attestation
  extensions : Option ExtensionInputs
  deriving DecidableEq

/-- The options of a registration in a document. -/
def CreationOptions.schema : Schema CreationOptions :=
  .record
    (.required "rp" RelyingParty.schema <|
      .required "user" UserAccount.schema <|
      .required "challenge" .bytes <|
      .required "pubKeyCredParams" (.list KeyParameters.schema) <|
      .optional "timeout" .timeout <|
      .defaulted "excludeCredentials" (.listOrNull (.tolerant CredentialDescriptor.schema)) [] <|
      .optional "authenticatorSelection" (.nullable AuthenticatorSelection.schema) <|
      .optional "attestation" (.lenientOption Attestation.names) <|
      .optional "extensions" (.nullable extensionInputsSchema) <|
      .nil)
    { build := fun (rp, user, challenge, keys, timeout, exclude, selection, attestation,
          extensions, ()) =>
        ⟨rp, user, challenge, keys, timeout, exclude, selection, attestation, extensions⟩
      parts := fun o =>
        (o.rp, o.user, o.challenge, o.keyParameters, o.timeout, o.excludeCredentials,
          o.authenticatorSelection, o.attestation, o.extensions, ()) }

/-- The options of an authentication. -/
structure RequestOptions where
  challenge : Bytes
  timeout : Option UInt32
  rpId : Option String
  allowCredentials : List CredentialDescriptor
  userVerification : UserVerification
  extensions : Option ExtensionInputs
  deriving DecidableEq

/-- The options of an authentication in a document. -/
def RequestOptions.schema : Schema RequestOptions :=
  .record
    (.required "challenge" .bytes <|
      .optional "timeout" .timeout <|
      .optional "rpId" (.nullable .string) <|
      .defaulted "allowCredentials" (.listOrNull (.tolerant CredentialDescriptor.schema)) [] <|
      .defaulted "userVerification" (.lenient UserVerification.names .preset) .preset <|
      .optional "extensions" (.nullable extensionInputsSchema) <|
      .nil)
    { build := fun (challenge, timeout, rpId, allow, verification, extensions, ()) =>
        ⟨challenge, timeout, rpId, allow, verification, extensions⟩
      parts := fun o =>
        (o.challenge, o.timeout, o.rpId, o.allowCredentials, o.userVerification, o.extensions,
          ()) }

/-- The argument of the call that makes a credential. -/
structure CreationCall where
  publicKey : CreationOptions
  deriving DecidableEq

/-- The argument of the call that makes a credential, in a document. -/
def CreationCall.schema : Schema CreationCall :=
  .record (.required "publicKey" CreationOptions.schema <| .nil)
    { build := fun (options, ()) => ⟨options⟩
      parts := fun c => (c.publicKey, ()) }

/-- The argument of the call that gets an assertion. -/
structure RequestCall where
  publicKey : RequestOptions
  deriving DecidableEq

/-- The argument of the call that gets an assertion, in a document. -/
def RequestCall.schema : Schema RequestCall :=
  .record (.required "publicKey" RequestOptions.schema <| .nil)
    { build := fun (options, ()) => ⟨options⟩
      parts := fun c => (c.publicKey, ()) }

end CredentialCeremony
