import CredentialCeremony.Text.Blank
import CredentialCeremony.Web.Percent

set_option autoImplicit false

/-!
# Form bodies

Names and values as `application/x-www-form-urlencoded`: letters, digits and `* - . _` stand for
themselves, a space is a plus sign, and every other byte of the text is a percent sign with two
hexadecimal digits.

`Form.decode` reads such a body; it stands beside `Form.encode` so that statements about bodies can
say what is in them. Main statement: `Form.decodePart_encodePart` (a name or value reads back).
-/

namespace CredentialCeremony.Form

/-- Whether a byte stands for itself. -/
def isPlain (b : UInt8) : Bool :=
  let c := Char.ofUInt8 b
  c.isAlphanum || c == '*' || c == '-' || c == '.' || c == '_'

/-- A byte in a form body. -/
def encodeByte (b : UInt8) : List Char :=
  if isPlain b then [Char.ofUInt8 b]
  else if b = 0x20 then ['+']
  else Percent.encodeByte b

/-- A name or value in a form body. -/
def encodePart (s : String) : List Char := (utf8 s).flatMap encodeByte

/-- A pair in a form body. -/
def encodePair (pair : String × String) : List Char :=
  encodePart pair.1 ++ '=' :: encodePart pair.2

/-- Names and values as a form body. -/
def encode (pairs : List (String × String)) : String :=
  String.ofList (['&'].intercalate (pairs.map encodePair))

/-- A name or value, if its bytes are a text. -/
def decodePart (part : List Char) : Option String :=
  ofUtf8? (Percent.decode (part.map fun c => if c = '+' then ' ' else c))

/-- A pair, split at its first equals sign. -/
def decodePair (piece : List Char) : Option (String × String) := do
  let name ← decodePart (piece.takeWhile (· != '='))
  let value ← decodePart ((piece.dropWhile (· != '=')).drop 1)
  return (name, value)

/-- The names and values of a form body; empty pieces between its separators are no pairs. -/
def decode (body : String) : Option (List (String × String)) :=
  ((Text.cut (· == '&') body.toList).filter fun piece => !piece.isEmpty).mapM decodePair

/-- A byte that stands for itself is an ASCII character with no meaning of its own in a body. -/
theorem plain_byte {b : UInt8} (h : isPlain b = true) :
    Char.ofUInt8 b ≠ '%' ∧ Char.ofUInt8 b ≠ '+' ∧ Char.ofUInt8 b ≠ '&' ∧ Char.ofUInt8 b ≠ '=' ∧
      String.utf8EncodeChar (Char.ofUInt8 b) = [b] := by
  have all : ∀ n < 256, isPlain (UInt8.ofNat n) = true →
      Char.ofUInt8 (UInt8.ofNat n) ≠ '%' ∧ Char.ofUInt8 (UInt8.ofNat n) ≠ '+' ∧
        Char.ofUInt8 (UInt8.ofNat n) ≠ '&' ∧ Char.ofUInt8 (UInt8.ofNat n) ≠ '=' ∧
        String.utf8EncodeChar (Char.ofUInt8 (UInt8.ofNat n)) = [UInt8.ofNat n] := by
    decide +kernel
  simpa using all b.toNat b.toNat_lt (by simpa using h)

/-- A name or value reads back. -/
theorem decodePart_encodePart (s : String) : decodePart (encodePart s) = some s := by
  have upper : ∀ n < 16, Text.upperHex n ≠ '+' := by decide
  have go (bytes : Bytes) : Percent.decode
      ((bytes.flatMap encodeByte).map fun c => if c = '+' then ' ' else c) = bytes := by
    induction bytes with
    | nil => rfl
    | cons b bytes ih =>
      rw [List.flatMap_cons, List.map_append, encodeByte]
      by_cases hp : isPlain b = true
      · obtain ⟨hpercent, hplus, -, -, hbytes⟩ := plain_byte hp
        simp only [hp, if_true, List.map_cons, List.map_nil, hplus, if_false, List.cons_append,
          List.nil_append, Percent.decode_cons_of_ne hpercent, hbytes, ih]
      · by_cases hs : b = 0x20
        · rw [if_neg hp, if_pos hs, hs]
          simp only [List.map_cons, List.map_nil, if_true, List.cons_append, List.nil_append,
            Percent.decode_cons_of_ne (show ' ' ≠ '%' by decide), ih]
          rfl
        · have hb := b.toNat_lt
          have high := upper (b.toNat / 16) (by omega)
          have low := upper (b.toNat % 16) (by omega)
          have kept : (Percent.encodeByte b).map (fun c => if c = '+' then ' ' else c) =
              Percent.encodeByte b := by
            simp [Percent.encodeByte, high, low]
          rw [if_neg hp, if_neg hs, kept, Percent.decode_encodeByte_append, ih]
  rw [decodePart, encodePart, go, ofUtf8?_utf8]

end CredentialCeremony.Form
