import CredentialCeremony.Schema.Basic

set_option autoImplicit false

/-!
# Choices of a ceremony

The named alternatives of a credential ceremony, each with its names in a document, and the
requirements on an authenticator that are made of them.
-/

namespace CredentialCeremony

/-- The kind of a credential. There is one kind so far; any other name is unknown. -/
inductive CredentialKind where
  | publicKey
  | unknown
  deriving DecidableEq, Repr, Inhabited

/-- The names of the credential kinds. -/
def CredentialKind.names : Choice CredentialKind where
  names := [("public-key", .publicKey), ("unknown", .unknown)]
  nameOf
    | .publicKey => "public-key"
    | .unknown => "unknown"
  fallback := none
  nameOf_mem := by intro a; cases a <;> rfl

/-- Whether the user has to be verified. -/
inductive UserVerification where
  | required
  | preferred
  | discouraged
  deriving DecidableEq, Repr, Inhabited

/-- The names of the demands on user verification. -/
def UserVerification.names : Choice UserVerification where
  names := [("required", .required), ("preferred", .preferred), ("discouraged", .discouraged)]
  nameOf
    | .required => "required"
    | .preferred => "preferred"
    | .discouraged => "discouraged"
  fallback := none
  nameOf_mem := by intro a; cases a <;> rfl

/-- A hint how an authenticator can be reached. -/
inductive Transport where
  | usb
  | nfc
  | ble
  | hybrid
  | internal
  deriving DecidableEq, Repr, Inhabited

/-- The names of the transports; `cable` is an old name of the hybrid one. -/
def Transport.names : Choice Transport where
  names := [("usb", .usb), ("nfc", .nfc), ("ble", .ble), ("cable", .hybrid), ("hybrid", .hybrid),
    ("internal", .internal)]
  nameOf
    | .usb => "usb"
    | .nfc => "nfc"
    | .ble => "ble"
    | .hybrid => "hybrid"
    | .internal => "internal"
  fallback := none
  nameOf_mem := by intro a; cases a <;> rfl

/-- How an authenticator is attached to the client. -/
inductive Attachment where
  | platform
  | crossPlatform
  deriving DecidableEq, Repr, Inhabited

/-- The names of the attachments. -/
def Attachment.names : Choice Attachment where
  names := [("platform", .platform), ("cross-platform", .crossPlatform)]
  nameOf
    | .platform => "platform"
    | .crossPlatform => "cross-platform"
  fallback := none
  nameOf_mem := by intro a; cases a <;> rfl

/-- Whether a credential shall be kept on the authenticator, so that a login needs no username. -/
inductive ResidentKey where
  | discouraged
  | preferred
  | required
  deriving DecidableEq, Repr, Inhabited

/-- The names of the demands on resident keys. -/
def ResidentKey.names : Choice ResidentKey where
  names := [("discouraged", .discouraged), ("preferred", .preferred), ("required", .required)]
  nameOf
    | .discouraged => "discouraged"
    | .preferred => "preferred"
    | .required => "required"
  fallback := none
  nameOf_mem := by intro a; cases a <;> rfl

/-- Which statement about the authenticator shall come with a new credential. -/
inductive Attestation where
  | none
  | indirect
  | direct
  | enterprise
  deriving DecidableEq, Repr, Inhabited

/-- The names of the attestation preferences. -/
def Attestation.names : Choice Attestation where
  names := [("none", .none), ("indirect", .indirect), ("direct", .direct),
    ("enterprise", .enterprise)]
  nameOf
    | .none => "none"
    | .indirect => "indirect"
    | .direct => "direct"
    | .enterprise => "enterprise"
  fallback := Option.none
  nameOf_mem := by intro a; cases a <;> rfl

/-- The attestation preference of a registration that states none. -/
def Attestation.preset : Attestation := .none

/-- The user verification of a ceremony that states none. -/
def UserVerification.preset : UserVerification := .preferred

/-- The kind of a credential whose kind is not known. -/
def CredentialKind.preset : CredentialKind := .unknown

/-- What a registration demands of an authenticator. -/
structure AuthenticatorSelection where
  authenticatorAttachment : Option Attachment
  residentKey : Option ResidentKey
  requireResidentKey : Bool
  userVerification : UserVerification
  deriving DecidableEq, Repr

/-- The demands of a registration that states none. -/
def AuthenticatorSelection.preset : AuthenticatorSelection := ⟨none, none, false, .preset⟩

/-- The demands on an authenticator in a document. -/
def AuthenticatorSelection.schema : Schema AuthenticatorSelection :=
  .record
    (.optional "authenticatorAttachment" (.lenientOption Attachment.names) <|
      .optional "residentKey" (.lenientOption ResidentKey.names) <|
      .defaulted "requireResidentKey" .flag false <|
      .defaulted "userVerification" (.lenient UserVerification.names .preset) .preset <|
      .nil)
    { build := fun (attachment, residentKey, required, verification, ()) =>
        ⟨attachment, residentKey, required, verification⟩
      parts := fun s =>
        (s.authenticatorAttachment, s.residentKey, s.requireResidentKey, s.userVerification, ()) }

end CredentialCeremony
