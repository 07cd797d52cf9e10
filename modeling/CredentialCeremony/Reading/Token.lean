import CredentialCeremony.Json.Basic
import CredentialCeremony.Number.Numeral
import CredentialCeremony.Reading.Reader
import CredentialCeremony.Text.Hexadecimal

set_option autoImplicit false

/-!
# Words, strings and numerals

The scanners for the parts of a JSON text that hold no other value. A scanner answers what it took
together with the text behind it, or else the text from where it failed; a byte that shows the
failure is passed, except where only the byte that was expected would have been.

Main statements: `scanString_plain` (bytes that need no escape stand for themselves) and
`takeDigits_length` (a run of digits and the rest make up the text).
-/

namespace CredentialCeremony

/-- The rest of a word, character by character; the first one that differs is passed as well. -/
def scanWord : (word : List Char) → Bytes → Except Bytes (Unit × Bytes)
  | [], text => .ok ((), text)
  | _ :: _, [] => .error []
  | c :: word, b :: text => if Char.ofUInt8 b = c then scanWord word text else .error text

/-- The number of four hexadecimal digits. -/
def hexUnit? (a b c d : UInt8) : Option Nat := do
  let digits ← [a, b, c, d].mapM fun digit => Text.hexValue? (Char.ofUInt8 digit)
  return digits.foldl (fun n digit => 16 * n + digit) 0

/-- The bytes of the character with the given code point. -/
def utf8Char (n : Nat) : Bytes := String.utf8EncodeChar (Char.ofNat n)

/-- The byte that a one-letter escape stands for. -/
def escapedByte? (b : UInt8) : Option UInt8 :=
  match Char.ofUInt8 b with
  | '"' => some b
  | '\\' => some b
  | '/' => some b
  | 'b' => some 0x08
  | 'f' => some 0x0C
  | 'n' => some 0x0A
  | 'r' => some 0x0D
  | 't' => some 0x09
  | _ => none

/-- Puts bytes in front of what was taken from a string. -/
def before (bytes : Bytes) (r : Except Bytes (Bytes × Bytes)) : Except Bytes (Bytes × Bytes) :=
  r.map fun (taken, rest) => (bytes ++ taken, rest)

/-- The bytes of a string up to its closing mark. A numbered escape takes four bytes whatever they
are; a leading surrogate has to be followed by the escape of a trailing one. -/
def scanString : Bytes → Except Bytes (Bytes × Bytes)
  | [] => .error []
  | b :: text =>
    match Char.ofUInt8 b with
    | '"' => .ok ([], text)
    | '\\' =>
      match text with
      | [] => .error []
      | e :: text =>
        if Char.ofUInt8 e = 'u' then
          match text with
          | h₁ :: h₂ :: h₃ :: h₄ :: text =>
            match hexUnit? h₁ h₂ h₃ h₄ with
            | none => .error text
            | some unit =>
              -- a trailing surrogate without a leading one
              if 0xDC00 ≤ unit ∧ unit ≤ 0xDFFF then .error text
              else if 0xD800 ≤ unit ∧ unit ≤ 0xDBFF then
                match text with
                | [] => .error []
                | b₁ :: text =>
                  if Char.ofUInt8 b₁ = '\\' then
                    match text with
                    | [] => .error []
                    | b₂ :: text =>
                      if Char.ofUInt8 b₂ = 'u' then
                        match text with
                        | l₁ :: l₂ :: l₃ :: l₄ :: text =>
                          match hexUnit? l₁ l₂ l₃ l₄ with
                          | none => .error text
                          | some low =>
                            if 0xDC00 ≤ low ∧ low ≤ 0xDFFF then
                              before (utf8Char ((unit - 0xD800) * 1024 + (low - 0xDC00) + 0x10000))
                                (scanString text)
                            else .error text
                        | _ => .error []
                      else .error text
                  else .error text
              else before (utf8Char unit) (scanString text)
          | _ => .error []
        else
          match escapedByte? e with
          | some plain => before [plain] (scanString text)
          | none => .error text
    | _ => if b < 0x20 then .error text else before [b] (scanString text)

/-- The values of the digits at the front of a text, and the text behind them. -/
def takeDigits : Bytes → List Nat × Bytes
  | [] => ([], [])
  | b :: text =>
    let c := Char.ofUInt8 b
    if c.isDigit then
      let (digits, rest) := takeDigits text
      ((c.toNat - 48) :: digits, rest)
    else ([], b :: text)

/-- The digits of an exponent of ten after the first; `none` if it passes 2 ^ 31 - 1, with the text
behind the digit that did it. -/
def scanExponentDigits (exponent : Nat) : Bytes → Option Nat × Bytes
  | [] => (some exponent, [])
  | b :: text =>
    let c := Char.ofUInt8 b
    if c.isDigit then
      let next := 10 * exponent + (c.toNat - 48)
      if 2147483647 < next then (none, text) else scanExponentDigits next text
    else (some exponent, b :: text)

/-- The double of a significand and an exponent, with the text behind the numeral. -/
def finishDouble (negative : Bool) (significand : Nat) (exponent : Int) (text : Bytes) :
    Except Bytes (Number × Bytes) :=
  match Numeral.double? negative significand exponent with
  | some x => .ok (.double x, text)
  | none => .error text

/-- The digits of an exponent behind its sign. An exponent that is too long makes a number other
than zero too great if it is positive, and else makes the number zero. -/
def scanSigned (negative : Bool) (significand : Nat) (start : Int) (down : Bool) :
    Bytes → Except Bytes (Number × Bytes)
  | [] => .error []
  | b :: text =>
    let c := Char.ofUInt8 b
    if c.isDigit then
      match scanExponentDigits (c.toNat - 48) text with
      | (some exponent, text) =>
        let exponent : Int := if down then start - exponent else start + exponent
        finishDouble negative significand exponent text
      | (none, text) =>
        if significand ≠ 0 ∧ ¬ down then .error text
        else .ok (.double (.zero negative), (takeDigits text).2)
    else .error text

/-- The exponent part of a numeral behind its `e`. -/
def scanExponent (negative : Bool) (significand : Nat) (start : Int) :
    Bytes → Except Bytes (Number × Bytes)
  | [] => .error []
  | b :: text =>
    match Char.ofUInt8 b with
    | '+' => scanSigned negative significand start false text
    | '-' => scanSigned negative significand start true text
    | _ => scanSigned negative significand start false (b :: text)

/-- Whether the next character starts an exponent, and the text behind it if so. -/
def exponentMark? : Bytes → Option Bytes
  | [] => none
  | b :: text => if Char.ofUInt8 b = 'e' ∨ Char.ofUInt8 b = 'E' then some text else none

/-- The fraction of a numeral behind its point. Digits that do not fit the significand are
ignored. -/
def scanFraction (negative : Bool) (significand : Nat) (start : Int) (text : Bytes) :
    Except Bytes (Number × Bytes) :=
  let (digits, rest) := takeDigits text
  if digits.isEmpty then .error text
  else
    let (significand, leftOut) := Numeral.absorb significand digits
    let exponent : Int := start - ((digits.length - leftOut : Nat) : Int)
    match exponentMark? rest with
    | some rest => scanExponent negative significand exponent rest
    | none => finishDouble negative significand exponent rest

/-- The number of a numeral without fraction and exponent, whose digits all fit the significand:
a whole number if 64 bits hold it, and else a double. Minus zero is a double. -/
def wholeNumber (negative : Bool) (significand : Nat) : Number :=
  if negative then
    if 0 < significand ∧ significand ≤ 0x8000000000000000 then .integer (-(significand : Int))
    else .double ((Numeral.double? true significand 0).getD (.zero true))
  else .integer significand

/-- A numeral behind its sign. Digits of the whole part that do not fit the significand count as
powers of ten. -/
def scanNumeral (negative : Bool) : Bytes → Except Bytes (Number × Bytes)
  | [] => .error []
  | b :: text =>
    let c := Char.ofUInt8 b
    if ¬ c.isDigit then .error text
    else
      let (digits, rest) := takeDigits text
      -- a leading zero stands alone
      if c = '0' ∧ ¬ digits.isEmpty then .error text
      else
        let (significand, leftOut) := Numeral.absorb (c.toNat - 48) digits
        match rest, exponentMark? rest with
        | _, some rest => scanExponent negative significand leftOut rest
        | [], none =>
          if leftOut = 0 then .ok (wholeNumber negative significand, [])
          else finishDouble negative significand leftOut []
        | b :: rest, none =>
          if Char.ofUInt8 b = '.' then scanFraction negative significand leftOut rest
          else if leftOut = 0 then .ok (wholeNumber negative significand, b :: rest)
          else finishDouble negative significand leftOut (b :: rest)

namespace Reader

/-- The rest of a word. -/
def word (rest : String) : Reader Unit := scan (scanWord rest.toList)

/-- The rest of a string behind its opening mark. -/
def stringBody : Reader String := do
  match ofUtf8? (← scan scanString) with
  | some s => return s
  | none => fail

/-- The rest of a numeral, whose sign has been passed. -/
def numeral (negative : Bool) : Reader Number := scan (scanNumeral negative)

end Reader

/-- Bytes that need no escape stand for themselves. -/
theorem scanString_plain {b : UInt8} (text : Bytes) (hq : Char.ofUInt8 b ≠ '"')
    (hs : Char.ofUInt8 b ≠ '\\') (hc : ¬ b < 0x20) :
    scanString (b :: text) = before [b] (scanString text) := by
  rw [scanString.eq_def]
  dsimp only
  split
  · rename_i h; exact absurd h hq
  · rename_i h; exact absurd h hs
  · rw [if_neg hc]

/-- Nothing is lost: the digits taken and the rest make up the text. -/
theorem takeDigits_length (text : Bytes) :
    (takeDigits text).1.length + (takeDigits text).2.length = text.length := by
  induction text with
  | nil => rfl
  | cons b text ih =>
    by_cases h : (Char.ofUInt8 b).isDigit
    · simp only [takeDigits, h, if_true, List.length_cons]
      omega
    · simp [takeDigits, h]

end CredentialCeremony
