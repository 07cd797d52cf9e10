import CredentialCeremony.Entity.Credential

set_option autoImplicit false

/-!
# Options of the server

A relying party serves one resource with the options of both ceremonies. `WireOptions` is that
resource as it is served, with binary values in base 64; `ServerOptions` is the same with the
binary values decoded. `ServerOptions.ofWire` decodes all of them or names the first that is not
written in the URL alphabet.

Main statement: decoding answers as many credentials as were served (`decodeDescriptors_length`).
-/

namespace CredentialCeremony

/-- A user as served: the handle is still in base 64, and the display name may be missing. -/
structure WireUser where
  id : String
  name : String
  displayName : Option String
  deriving DecidableEq, Repr, Inhabited

/-- A user as served. Older servers say `userHandle` and `username`. -/
def WireUser.schema : Schema WireUser :=
  .record
    (.cons "id" ["userHandle"] .string .required <|
      .cons "name" ["username"] .string .required <|
      .optional "displayName" (.nullable .string) <|
      .nil)
    { build := fun (id, name, displayName, ()) => ⟨id, name, displayName⟩
      parts := fun u => (u.id, u.name, u.displayName, ()) }

/-- A registered credential as served: its id is still in base 64. -/
structure WireDescriptor where
  kind : CredentialKind
  id : String
  transports : Option (List Transport)
  deriving DecidableEq, Repr, Inhabited

/-- A registered credential as served; its kind may be missing. -/
def WireDescriptor.schema : Schema WireDescriptor :=
  .record
    (.defaulted "type" (.lenient CredentialKind.names .preset) .preset <|
      .required "id" .string <|
      .optional "transports" transportsSchema <|
      .nil)
    { build := fun (kind, id, transports, ()) => ⟨kind, id, transports⟩
      parts := fun d => (d.kind, d.id, d.transports, ()) }

/-- Ordered names and values that are passed back to the server. -/
abbrev Parameters := Dictionary String

/-- The options of both ceremonies as served. -/
structure WireOptions where
  relyingParty : RelyingParty
  user : Option WireUser
  challenge : String
  keyParameters : List KeyParameters
  registrationTimeout : Option UInt32
  authenticationTimeout : Option UInt32
  credentials : List WireDescriptor
  parameters : Parameters
  deriving DecidableEq

/-- The options of both ceremonies as served, in a document. -/
def WireOptions.schema : Schema WireOptions :=
  .record
    (.required "relyingParty" RelyingParty.schema <|
      .optional "user" (.nullable WireUser.schema) <|
      .required "challenge" .string <|
      .defaulted "pubKeyCredParams" (.tolerant KeyParameters.schema) [] <|
      .optional "registrationTimeout" .timeout <|
      .optional "authenticationTimeout" .timeout <|
      .defaulted "credentials" (.list WireDescriptor.schema) [] <|
      .defaulted "parameters" .dictionary .empty <|
      .nil)
    { build := fun (rp, user, challenge, keys, registration, authentication, credentials,
          parameters, ()) =>
        ⟨rp, user, challenge, keys, registration, authentication, credentials, parameters⟩
      parts := fun o =>
        (o.relyingParty, o.user, o.challenge, o.keyParameters, o.registrationTimeout,
          o.authenticationTimeout, o.credentials, o.parameters, ()) }

/-- The options of both ceremonies with every binary value decoded. -/
structure ServerOptions where
  relyingParty : RelyingParty
  user : Option UserAccount
  challenge : Bytes
  keyParameters : List KeyParameters
  registrationTimeout : Option UInt32
  authenticationTimeout : Option UInt32
  credentials : List CredentialDescriptor
  parameters : Parameters
  deriving DecidableEq

/-- The decoded options in a document. -/
def ServerOptions.schema : Schema ServerOptions :=
  .record
    (.required "relyingParty" RelyingParty.schema <|
      .optional "user" (.nullable UserAccount.schema) <|
      .required "challenge" .bytes <|
      .required "pubKeyCredParams" (.list KeyParameters.schema) <|
      .optional "registrationTimeout" (.nullable .word) <|
      .optional "authenticationTimeout" (.nullable .word) <|
      .defaulted "credentials" (.list CredentialDescriptor.schema) [] <|
      .defaulted "parameters" .dictionary .empty <|
      .nil)
    { build := fun (rp, user, challenge, keys, registration, authentication, credentials,
          parameters, ()) =>
        ⟨rp, user, challenge, keys, registration, authentication, credentials, parameters⟩
      parts := fun o =>
        (o.relyingParty, o.user, o.challenge, o.keyParameters, o.registrationTimeout,
          o.authenticationTimeout, o.credentials, o.parameters, ()) }

/-- A binary value of the served options is not in the URL alphabet; `field` is the path to it. -/
structure DecodeError where
  field : String
  deriving DecidableEq, Repr

/-- The message that names the field. -/
def DecodeError.message (e : DecodeError) : String :=
  "field " ++ ReadError.marked e.field ++ " is not base64url encoded"

/-- The path to the id of the registered credential at a position. -/
def descriptorField (index : Nat) : String := "credentials[" ++ toString index ++ "].id"

/-- Decodes the binary value of a field. -/
def decodeField (field text : String) : Except DecodeError Bytes :=
  match Base64.decodeUrl? text with
  | some bytes => .ok bytes
  | none => .error ⟨field⟩

/-- Decodes the handle of a user, whose name stands in for a missing display name. -/
def UserAccount.ofWire (u : WireUser) : Except DecodeError UserAccount := do
  let id ← decodeField "user.id" u.id
  return ⟨id, u.displayName.getD u.name, u.name⟩

/-- Decodes the ids of registered credentials, the first of which is at the given position. -/
def decodeDescriptors (index : Nat) :
    List WireDescriptor → Except DecodeError (List CredentialDescriptor)
  | [] => .ok []
  | d :: rest => do
    let id ← decodeField (descriptorField index) d.id
    let others ← decodeDescriptors (index + 1) rest
    return ⟨d.kind, id, d.transports⟩ :: others

/-- Decodes the user, if there is one. -/
def decodeUser : Option WireUser → Except DecodeError (Option UserAccount)
  | none => .ok none
  | some user => (UserAccount.ofWire user).map some

/-- Decodes every binary value, in the order challenge, user, credentials. -/
def ServerOptions.ofWire (wire : WireOptions) : Except DecodeError ServerOptions := do
  let challenge ← decodeField "challenge" wire.challenge
  let user ← decodeUser wire.user
  let credentials ← decodeDescriptors 0 wire.credentials
  return {
    relyingParty := wire.relyingParty
    user
    challenge
    keyParameters := wire.keyParameters
    registrationTimeout := wire.registrationTimeout
    authenticationTimeout := wire.authenticationTimeout
    credentials
    parameters := wire.parameters }

/-- As many credentials are decoded as were served. -/
theorem decodeDescriptors_length {wire : List WireDescriptor} {index : Nat}
    {ds : List CredentialDescriptor} (h : decodeDescriptors index wire = .ok ds) :
    ds.length = wire.length := by
  induction wire generalizing index ds with
  | nil => cases h; rfl
  | cons d rest ih =>
    rw [decodeDescriptors] at h
    cases hd : decodeField (descriptorField index) d.id with
    | error e => rw [hd] at h; cases h
    | ok id =>
      cases hr : decodeDescriptors (index + 1) rest with
      | error e => rw [hd] at h; simp only [bind, Except.bind, hr] at h; cases h
      | ok others =>
        rw [hd] at h
        simp only [bind, Except.bind, hr, pure, Except.pure] at h
        cases h
        simp [ih hr]

end CredentialCeremony
