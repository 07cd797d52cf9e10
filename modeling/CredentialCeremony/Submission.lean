import CredentialCeremony.Form
import CredentialCeremony.Options.Server
import CredentialCeremony.Schema.Printer

set_option autoImplicit false

/-!
# Submission of an assertion

After an authentication the credential is sent back to the relying party as form fields. The server
chooses the names of the fields: its parameters map a key to the name, and a key that they do not
map is the name itself.

Main statement: `Submission.encode_length` (five fields, and one more if a username is given).
-/

namespace CredentialCeremony

/-- Form fields in order. -/
structure Submission where
  fields : List (String × String)
  deriving DecidableEq, Repr, Inhabited

namespace Submission

/-- The name that the server chose for a key. -/
def fieldName (parameters : Parameters) (key : String) : String := (parameters.get? key).getD key

/-- The fields of a credential, with the username in front if there is one. Binary values are in
base 64, the outputs of the extensions are JSON text. -/
def encode (parameters : Parameters) (credential : AssertedCredential) (username : Option String) :
    Submission :=
  let field (key value : String) := (fieldName parameters key, value)
  ⟨(username.map (field "username")).toList ++ [
    field "credentialId" (Base64.encode credential.rawId),
    field "clientDataJSON" (Base64.encode credential.response.clientData),
    field "authenticatorData" (Base64.encode credential.response.authenticatorData),
    field "signature" (Base64.encode credential.response.signature),
    field "clientExtensionsJSON" (extensionOutputsSchema.text credential.extensionOutputs)]⟩

/-- The value of the first field of a name. -/
def get? (s : Submission) (name : String) : Option String := s.fields.lookup name

/-- The fields as a form body. -/
def formBody (s : Submission) : String := Form.encode s.fields

theorem encode_length (parameters : Parameters) (credential : AssertedCredential)
    (username : Option String) :
    (encode parameters credential username).fields.length =
      5 + if username.isSome then 1 else 0 := by
  cases username <;> rfl

end Submission
end CredentialCeremony
