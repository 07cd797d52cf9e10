import CredentialCeremony.Entity.Algorithm
import CredentialCeremony.Entity.Preference

set_option autoImplicit false

/-!
# Parties, key parameters and credential descriptors

The entities that the options of a ceremony are made of: the relying party, the user account, the
acceptable keys, and the credentials that are registered already.
-/

namespace CredentialCeremony

/-- The relying party of a ceremony. -/
structure RelyingParty where
  id : Option String
  name : String
  icon : Option String
  deriving DecidableEq, Repr, Inhabited

/-- A relying party in a document. -/
def RelyingParty.schema : Schema RelyingParty :=
  .record
    (.optional "id" (.nullable .string) <|
      .required "name" .string <|
      .optional "icon" (.nullable .string) <|
      .nil)
    { build := fun (id, name, icon, ()) => ⟨id, name, icon⟩
      parts := fun p => (p.id, p.name, p.icon, ()) }

/-- The account that a credential is registered for. -/
structure UserAccount where
  id : Bytes
  displayName : String
  name : String
  deriving DecidableEq, Repr, Inhabited

/-- A user account in a document. -/
def UserAccount.schema : Schema UserAccount :=
  .record
    (.required "id" .bytes <|
      .required "displayName" .string <|
      .required "name" .string <|
      .nil)
    { build := fun (id, displayName, name, ()) => ⟨id, displayName, name⟩
      parts := fun u => (u.id, u.displayName, u.name, ()) }

/-- A key that is acceptable for a new credential. -/
structure KeyParameters where
  kind : CredentialKind
  algorithm : AlgorithmId
  deriving DecidableEq, Repr

/-- An acceptable key in a document. -/
def KeyParameters.schema : Schema KeyParameters :=
  .record
    (.required "type" (.lenient CredentialKind.names .preset) <|
      .required "alg" .integer <|
      .nil)
    { build := fun (kind, algorithm, ()) => ⟨kind, algorithm⟩
      parts := fun p => (p.kind, p.algorithm, ()) }

/-- The keys to ask for when nobody has named any. -/
def KeyParameters.presets : List KeyParameters :=
  [⟨.publicKey, AlgorithmId.es256⟩, ⟨.publicKey, AlgorithmId.rs256⟩]

/-- A credential that has been registered before. -/
structure CredentialDescriptor where
  kind : CredentialKind
  id : Bytes
  transports : Option (List Transport)
  deriving DecidableEq, Repr, Inhabited

/-- The transports of a credential in a document: unreadable ones are dropped. -/
def transportsSchema : Schema (Option (List Transport)) :=
  .nullable (.tolerant (.choice Transport.names))

/-- A registered credential in a document. -/
def CredentialDescriptor.schema : Schema CredentialDescriptor :=
  .record
    (.required "type" (.lenient CredentialKind.names .preset) <|
      .required "id" .bytes <|
      .optional "transports" transportsSchema <|
      .nil)
    { build := fun (kind, id, transports, ()) => ⟨kind, id, transports⟩
      parts := fun d => (d.kind, d.id, d.transports, ()) }

/-- A public-key credential with the given id and no transport hints. -/
def CredentialDescriptor.publicKey (id : Bytes) : CredentialDescriptor := ⟨.publicKey, id, none⟩

end CredentialCeremony
