set_option autoImplicit false

/-!
# Bytes written in base 64

Two alphabets write six bits per character: the URL alphabet ends in `-` and `_`, the standard one
in `+` and `/`. Bytes are always written in the URL alphabet without padding. Reading ignores any
number of `=` at the end; a loose reading also ignores the bits of the last character that belong
to no byte, a strict one demands that they are zero.

Main statements: `sextetsOf_length` (the number of characters that a number of bytes takes) and
`bytesOf_sextetsOf` (the six-bit groups of bytes read back as these bytes, loosely and strictly).
-/

namespace CredentialCeremony

/-- A binary value of a ceremony: a challenge, a user handle, a credential id. -/
abbrev Bytes := List UInt8

namespace Base64

/-- Which characters stand for the groups 62 and 63. -/
inductive Alphabet where
  | url
  | standard
  deriving DecidableEq, Repr

/-- The characters for 62 and 63. -/
def Alphabet.lastTwo : Alphabet → Char × Char
  | .url => ('-', '_')
  | .standard => ('+', '/')

/-- The character that stands for a six-bit group. -/
def Alphabet.symbol (a : Alphabet) (n : Nat) : Char :=
  -- `A` is 65, `a` is 97 and `0` is 48
  if n < 26 then Char.ofNat (65 + n)
  else if n < 52 then Char.ofNat (71 + n)
  else if n < 62 then Char.ofNat (n - 4)
  else if n = 62 then a.lastTwo.1
  else a.lastTwo.2

/-- The six-bit group that a character stands for. -/
def Alphabet.value? (a : Alphabet) (c : Char) : Option Nat :=
  if c.isUpper then some (c.toNat - 65)
  else if c.isLower then some (c.toNat - 71)
  else if c.isDigit then some (c.toNat + 4)
  else if c = a.lastTwo.1 then some 62
  else if c = a.lastTwo.2 then some 63
  else none

/-- The six-bit groups of a byte sequence; the last one is filled up with zero bits. -/
def sextetsOf : Bytes → List Nat
  | [] => []
  | [a] => [a.toNat / 4, a.toNat % 4 * 16]
  | [a, b] => [a.toNat / 4, a.toNat % 4 * 16 + b.toNat / 16, b.toNat % 16 * 4]
  | a :: b :: c :: rest =>
    a.toNat / 4 :: (a.toNat % 4 * 16 + b.toNat / 16) :: (b.toNat % 16 * 4 + c.toNat / 64) ::
      c.toNat % 64 :: sextetsOf rest

/-- The bytes that a sequence of six-bit groups holds, where `strict` demands that the bits after
the last byte are zero. A single group left over holds no byte and is refused. -/
def bytesOf (strict : Bool) : List Nat → Option Bytes
  | [] => some []
  | [_] => none
  | [p, q] =>
    if strict && q % 16 != 0 then none else some [UInt8.ofNat (p * 4 + q / 16)]
  | [p, q, r] =>
    if strict && r % 4 != 0 then none
    else some [UInt8.ofNat (p * 4 + q / 16), UInt8.ofNat (q % 16 * 16 + r / 4)]
  | p :: q :: r :: s :: rest =>
    (bytesOf strict rest).map fun bytes =>
      UInt8.ofNat (p * 4 + q / 16) :: UInt8.ofNat (q % 16 * 16 + r / 4) ::
        UInt8.ofNat (r % 4 * 64 + s) :: bytes

/-- The text without the padding at its end. -/
def unpadded (text : List Char) : List Char := (text.reverse.dropWhile (· == '=')).reverse

/-- Bytes in the URL alphabet, without padding. -/
def encode (bytes : Bytes) : String := String.ofList ((sextetsOf bytes).map Alphabet.url.symbol)

/-- Reads a text in the given alphabet. -/
def decode? (alphabet : Alphabet) (strict : Bool) (text : String) : Option Bytes :=
  ((unpadded text.toList).mapM alphabet.value?).bind (bytesOf strict)

/-- Reads the URL alphabet; bits after the last byte are ignored. -/
def decodeUrl? (text : String) : Option Bytes := decode? .url false text

/-- Reads the standard alphabet; bits after the last byte must be zero. -/
def decodeStandard? (text : String) : Option Bytes := decode? .standard true text

/-- Three bytes take four characters, one or two left over take two or three. -/
theorem sextetsOf_length (bytes : Bytes) :
    (sextetsOf bytes).length = (4 * bytes.length + 2) / 3 := by
  fun_induction sextetsOf bytes with
  | case1 => rfl
  | case2 => simp
  | case3 => simp
  | case4 a b c rest ih => simp only [List.length_cons, ih]; omega

/-- The six-bit groups of bytes read back as these bytes, strictly as well as loosely. -/
theorem bytesOf_sextetsOf (strict : Bool) (bytes : Bytes) :
    bytesOf strict (sextetsOf bytes) = some bytes := by
  have byte (a : UInt8) (n : Nat) (h : n = a.toNat) : UInt8.ofNat n = a := by
    subst h; exact UInt8.ofNat_toNat
  fun_induction sextetsOf bytes with
  | case1 => rfl
  | case2 a =>
    have := a.toNat_lt
    simp only [bytesOf]
    rw [byte a _ (by omega)]
    simp
  | case3 a b =>
    have := a.toNat_lt
    have := b.toNat_lt
    simp only [bytesOf]
    rw [byte a _ (by omega), byte b _ (by omega)]
    simp
  | case4 a b c rest ih =>
    have := a.toNat_lt
    have := b.toNat_lt
    have := c.toNat_lt
    simp only [bytesOf, ih, Option.map_some]
    rw [byte a _ (by omega), byte b _ (by omega), byte c _ (by omega)]

end Base64

/-- Reads a binary value from either alphabet, the URL alphabet first. -/
def Bytes.ofText? (text : String) : Option Bytes :=
  Base64.decodeUrl? text <|> Base64.decodeStandard? text

/-- The message for a text that is in neither alphabet. -/
def Bytes.unreadableMessage : String := "value is neither base64url nor base64 encoded"

end CredentialCeremony
