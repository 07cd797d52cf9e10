import CredentialCeremony.Binary.Utf8
import CredentialCeremony.Text.Hexadecimal

set_option autoImplicit false

/-!
# Percent encoding

The parts of an address write some characters as the bytes of their text, each a percent sign with
two hexadecimal digits. Which characters these are depends on the part; every control and every
character beyond ASCII is among them.

Main statement: `decode_encodeByte_append` (an encoded byte reads back).
-/

namespace CredentialCeremony.Percent

/-- Controls and characters beyond ASCII. -/
def isControl (c : Char) : Bool := c.toNat < 0x20 || 0x7E < c.toNat

/-- The characters that are encoded in a fragment. -/
def inFragment (c : Char) : Bool := isControl c || [' ', '"', '<', '>', '\x60'].contains c

/-- The characters that are encoded in a query. -/
def inQuery (c : Char) : Bool := isControl c || [' ', '"', '#', '<', '>'].contains c

/-- The characters that are encoded in the query of a special address. -/
def inSpecialQuery (c : Char) : Bool := inQuery c || c == '\x27'

/-- The characters that are encoded in a path. -/
def inPath (c : Char) : Bool := inQuery c || ['?', '\x60', '\x7b', '\x7d'].contains c

/-- The characters that are encoded in a user name or password. -/
def inUserInfo (c : Char) : Bool :=
  inPath c || ['/', ':', ';', '=', '@', '[', '\\', ']', '^', '|'].contains c

/-- A byte as a percent sign and two digits. -/
def encodeByte (b : UInt8) : List Char :=
  ['%', Text.upperHex (b.toNat / 16), Text.upperHex (b.toNat % 16)]

/-- A text in which the given characters are encoded. -/
def encode (encoded : Char → Bool) (text : List Char) : List Char :=
  text.flatMap fun c => if encoded c then (String.utf8EncodeChar c).flatMap encodeByte else [c]

/-- The bytes of a text with percent signs; one without two digits stands for itself. -/
def decode : List Char → Bytes
  | [] => []
  | '%' :: h :: l :: rest =>
    match Text.hexValue? h, Text.hexValue? l with
    | some high, some low => UInt8.ofNat (16 * high + low) :: decode rest
    | _, _ => 0x25 :: decode (h :: l :: rest)
  | c :: rest => String.utf8EncodeChar c ++ decode rest

/-- An encoded byte reads back. -/
theorem decode_encodeByte_append (b : UInt8) (rest : List Char) :
    decode (encodeByte b ++ rest) = b :: decode rest := by
  have hb := b.toNat_lt
  have high := Text.hexValue?_upperHex (b.toNat / 16) (by omega)
  have low := Text.hexValue?_upperHex (b.toNat % 16) (by omega)
  have value : 16 * (b.toNat / 16) + b.toNat % 16 = b.toNat := by omega
  simp [encodeByte, decode, high, low, value]

/-- A character other than a percent sign stands for itself. -/
theorem decode_cons_of_ne {c : Char} (h : c ≠ '%') (rest : List Char) :
    decode (c :: rest) = String.utf8EncodeChar c ++ decode rest := by
  rw [decode]
  intro _ _ _ hc
  exact absurd hc h

end CredentialCeremony.Percent
