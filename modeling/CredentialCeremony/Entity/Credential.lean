import CredentialCeremony.Entity.Descriptor

set_option autoImplicit false

/-!
# Extensions and credentials

What a platform answers to a ceremony: a credential with the response of the authenticator and the
outputs of the extensions. Only the extension `credProps` is known; the members of all others are
kept as they are.
-/

namespace CredentialCeremony

/-- What the client reports about a new credential. -/
structure CredentialProperties where
  residentKey : Option Bool
  deriving DecidableEq, Repr, Inhabited

/-- The report about a new credential in a document. -/
def CredentialProperties.schema : Schema CredentialProperties :=
  .record
    (.optional "rk" (.nullable .flag) <| .nil)
    { build := fun (residentKey, ()) => ⟨residentKey⟩
      parts := fun p => (p.residentKey, ()) }

/-- The inputs to the extensions of a ceremony. -/
abbrev ExtensionInputs := Extensible Bool

/-- The outputs of the extensions of a ceremony. -/
abbrev ExtensionOutputs := Extensible CredentialProperties

/-- The inputs to the extensions in a document. -/
def extensionInputsSchema : Schema ExtensionInputs := .extensible "credProps" .flag

/-- The outputs of the extensions in a document. -/
def extensionOutputsSchema : Schema ExtensionOutputs :=
  .extensible "credProps" CredentialProperties.schema

/-- The response of an authenticator to an authentication. -/
structure AssertionResponse where
  clientData : Bytes
  authenticatorData : Bytes
  signature : Bytes
  userHandle : Option Bytes
  deriving DecidableEq, Repr, Inhabited

/-- The response to an authentication in a document. -/
def AssertionResponse.schema : Schema AssertionResponse :=
  .record
    (.required "clientDataJSON" .bytes <|
      .required "authenticatorData" .bytes <|
      .required "signature" .bytes <|
      .optional "userHandle" (.nullable .bytes) <|
      .nil)
    { build := fun (clientData, authenticatorData, signature, userHandle, ()) =>
        ⟨clientData, authenticatorData, signature, userHandle⟩
      parts := fun r => (r.clientData, r.authenticatorData, r.signature, r.userHandle, ()) }

/-- The response of an authenticator to a registration. -/
structure AttestationResponse where
  clientData : Bytes
  attestationObject : Bytes
  transports : Option (List Transport)
  deriving DecidableEq, Repr, Inhabited

/-- The response to a registration in a document. -/
def AttestationResponse.schema : Schema AttestationResponse :=
  .record
    (.required "clientDataJSON" .bytes <|
      .required "attestationObject" .bytes <|
      .optional "transports" transportsSchema <|
      .nil)
    { build := fun (clientData, attestationObject, transports, ()) =>
        ⟨clientData, attestationObject, transports⟩
      parts := fun r => (r.clientData, r.attestationObject, r.transports, ()) }

/-- A credential with the response of its authenticator. -/
structure Credential (ρ : Type) where
  id : String
  rawId : Bytes
  kind : CredentialKind
  response : ρ
  authenticatorAttachment : Option Attachment
  extensionOutputs : ExtensionOutputs
  deriving DecidableEq

/-- A credential in a document. -/
def Credential.schema {ρ : Type} (response : Schema ρ) : Schema (Credential ρ) :=
  .record
    (.required "id" .string <|
      .required "rawId" .bytes <|
      .required "type" (.lenient CredentialKind.names .preset) <|
      .required "response" response <|
      .optional "authenticatorAttachment" (.lenientOption Attachment.names) <|
      .defaulted "clientExtensionResults" extensionOutputsSchema default <|
      .nil)
    { build := fun (id, rawId, kind, response, attachment, outputs, ()) =>
        ⟨id, rawId, kind, response, attachment, outputs⟩
      parts := fun c =>
        (c.id, c.rawId, c.kind, c.response, c.authenticatorAttachment, c.extensionOutputs, ()) }

/-- The credential that a registration makes. -/
abbrev CreatedCredential := Credential AttestationResponse

/-- The credential that an authentication is made with. -/
abbrev AssertedCredential := Credential AssertionResponse

/-- A created credential in a document. -/
def createdCredentialSchema : Schema CreatedCredential :=
  Credential.schema AttestationResponse.schema

/-- An asserted credential in a document. -/
def assertedCredentialSchema : Schema AssertedCredential :=
  Credential.schema AssertionResponse.schema

end CredentialCeremony
