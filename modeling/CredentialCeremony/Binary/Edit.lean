import CredentialCeremony.Binary.Base64

set_option autoImplicit false

/-!
# Editing bytes

The changes that a binary value in use can undergo.
-/

namespace CredentialCeremony

/-- A change of a binary value. -/
inductive Edit where
  | extend (bytes : Bytes)
  | truncate (length : Nat)
  | reverse
  | set (bytes : Bytes)
  | clear
  deriving DecidableEq, Repr

/-- The value after a change; a value that is short enough is not truncated. -/
def Edit.apply : Edit → Bytes → Bytes
  | .extend more, bytes => bytes ++ more
  | .truncate length, bytes => bytes.take length
  | .reverse, bytes => bytes.reverse
  | .set new, _ => new
  | .clear, _ => []

end CredentialCeremony
