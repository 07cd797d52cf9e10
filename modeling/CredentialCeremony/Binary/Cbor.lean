import CredentialCeremony.Binary.Utf8

set_option autoImplicit false

/-!
# Bytes as a binary item

A binary format carries a byte sequence as a byte string item: a head with major type 2 and the
length, in as few bytes as it fits, then the bytes. `Cbor.write` writes this form; `writePieces`,
`writeText` and `writeArray` write the other forms that are read.

`Cbor.read?` accepts more. A byte string may come in pieces (an open head, pieces, a break mark;
pieces may themselves come in pieces). A text string, whole or in pieces, is read as base 64 of
either alphabet. An array of integers from 0 to 255 is read as its elements, where an integer may
carry tags and may be written as a big number. What follows the item is not looked at.

Recursion runs along the input: a round of each loop takes at least one byte, so the loop ends
before the bytes it is counted on do.

Main statement: `bigEndian_bigEndianOf` (the bytes of a length spell the length).
-/

namespace CredentialCeremony.Cbor

/-- The head of an item; a missing length marks an item that ends at a break mark. -/
inductive Head where
  | unsigned (n : Nat)
  | negative (n : Nat)
  | byteString (length : Option Nat)
  | textString (length : Option Nat)
  | array (length : Option Nat)
  | map (length : Option Nat)
  | tag (n : Nat)
  | stop
  | simple
  deriving DecidableEq, Repr

/-- The number that bytes spell, most significant byte first. -/
def bigEndian (bytes : Bytes) : Nat := bytes.foldl (fun n b => 256 * n + b.toNat) 0

/-- The low `width` bytes of a number, most significant byte first. -/
def bigEndianOf (width : Nat) (n : Nat) : Bytes :=
  match width with
  | 0 => []
  | width + 1 => UInt8.ofNat (n / Nat.pow 256 width) :: bigEndianOf width n

/-- The first `n` bytes and the rest, if there are so many. -/
def split? (n : Nat) (input : Bytes) : Option (Bytes × Bytes) :=
  if n ≤ input.length then some (input.take n, input.drop n) else none

theorem split?_append {front rest : Bytes} {n : Nat} (h : front.length = n) :
    split? n (front ++ rest) = some (front, rest) := by
  subst h
  simp [split?]

/-- The argument of a head: a number, or an open end. -/
def argument? (minor : Nat) (input : Bytes) : Option (Option Nat × Bytes) :=
  let wide (n : Nat) := (split? n input).map fun (bytes, rest) => (some (bigEndian bytes), rest)
  if minor < 24 then some (some minor, input)
  else if minor = 24 then wide 1
  else if minor = 25 then wide 2
  else if minor = 26 then wide 4
  else if minor = 27 then wide 8
  else if minor = 31 then some (none, input)
  else none

/-- The head at the start of the input. -/
def head? : Bytes → Option (Head × Bytes)
  | [] => none
  | b :: input => do
    -- three bits of major type, then five bits that are the argument or tell its width
    let minor := b.toNat % 32
    let (argument, rest) ← argument? minor input
    match b.toNat / 32, argument with
    | 0, some n => some (.unsigned n, rest)
    | 1, some n => some (.negative n, rest)
    | 2, length => some (.byteString length, rest)
    | 3, length => some (.textString length, rest)
    | 4, length => some (.array length, rest)
    | 5, length => some (.map length, rest)
    | 6, some n => some (.tag n, rest)
    | 7, none => some (.stop, rest)
    | 7, some _ => some (.simple, rest)
    | _, _ => none

/-- The pieces of a string item that came with an open head, up to the break mark that closes it.
`depth` further open heads stand around the piece that comes next. -/
def pieces? (lengthOf : Head → Option (Option Nat)) :
    (clock : Bytes) → (depth : Nat) → Bytes → Option (List Bytes × Bytes)
  | [], _, _ => none
  | _ :: clock, depth, input => do
    let (head, rest) ← head? input
    if head = .stop then
      match depth with
      | 0 => some ([], rest)
      | depth + 1 => pieces? lengthOf clock depth rest
    else
      match ← lengthOf head with
      | none => pieces? lengthOf clock (depth + 1) rest
      | some n => do
        let (piece, rest) ← split? n rest
        let (more, rest) ← pieces? lengthOf clock depth rest
        some (piece :: more, rest)

/-- The pieces of a string item after its head. -/
def stringPieces? (lengthOf : Head → Option (Option Nat)) (length : Option Nat) (input : Bytes) :
    Option (List Bytes × Bytes) :=
  match length with
  | some n => (split? n input).map fun (piece, rest) => ([piece], rest)
  | none => pieces? lengthOf input 0 input

/-- The length of a byte string item. -/
def Head.byteLength? : Head → Option (Option Nat)
  | .byteString length => some length
  | _ => none

/-- The length of a text string item. -/
def Head.textLength? : Head → Option (Option Nat)
  | .textString length => some length
  | _ => none

/-- The number of a big-number item: at most sixteen bytes after the leading zeros. -/
def bigNumber? (input : Bytes) : Option (Nat × Bytes) := do
  let (head, rest) ← head? input
  let length ← head.byteLength?
  let (pieces, rest) ← stringPieces? Head.byteLength? length rest
  let digits := pieces.flatten.dropWhile (· == 0)
  if digits.length ≤ 16 then some (bigEndian digits, rest) else none

/-- The number that is at least zero at the start of the input; tags before it are ignored, except
that tag 2 announces a big number and tag 3 a negative one. -/
def natural? : (clock : Bytes) → Bytes → Option (Nat × Bytes)
  | [], _ => none
  | _ :: clock, input => do
    let (head, rest) ← head? input
    match head with
    | .unsigned n => some (n, rest)
    | .tag 2 => bigNumber? rest
    | .tag 3 => none
    | .tag _ => natural? clock rest
    | _ => none

/-- The elements of an array of byte values after its head. -/
def byteValues? : (clock : Bytes) → (length : Option Nat) → Bytes → Option Bytes
  | _, some 0, _ => some []
  | [], _, _ => none
  | _ :: clock, length, input => do
    match length, head? input with
    -- a break mark ends an array only if its head was open
    | none, some (.stop, _) => some []
    | _, _ =>
      let (n, rest) ← natural? input input
      if n < 256 then
        let more ← byteValues? clock (length.map (· - 1)) rest
        some (UInt8.ofNat n :: more)
      else none

/-- The text of valid encoded pieces. -/
def textOf? (pieces : List Bytes) : Option String := do
  let texts ← pieces.mapM ofUtf8?
  some (String.join texts)

/-- Reads the item at the start of the input as bytes. -/
def read? (input : Bytes) : Option Bytes := do
  let (head, rest) ← head? input
  match head with
  | .byteString length =>
    let (pieces, _) ← stringPieces? Head.byteLength? length rest
    some pieces.flatten
  | .textString length =>
    let (pieces, _) ← stringPieces? Head.textLength? length rest
    Bytes.ofText? (← textOf? pieces)
  | .array length => byteValues? input length rest
  | _ => none

/-- The head of an item of the given major type with a number for its argument, as short as it can
be. -/
def headBytes (major n : Nat) : Bytes :=
  let first (minor : Nat) := UInt8.ofNat (32 * major + minor)
  if n < 24 then [first n]
  else if n < 256 then first 24 :: bigEndianOf 1 n
  else if n < 65536 then first 25 :: bigEndianOf 2 n
  else if n < 4294967296 then first 26 :: bigEndianOf 4 n
  else first 27 :: bigEndianOf 8 n

/-- Bytes as one byte string item. -/
def write (bytes : Bytes) : Bytes := headBytes 2 bytes.length ++ bytes

/-- Bytes as a byte string item in the given pieces, behind an open head and before a break mark. -/
def writePieces (pieces : List Bytes) : Bytes := 0x5F :: pieces.flatMap write ++ [0xFF]

/-- The bytes of a text as one text string item. -/
def writeText (text : String) : Bytes := headBytes 3 (utf8 text).length ++ utf8 text

/-- Bytes as an array of integers. -/
def writeArray (bytes : Bytes) : Bytes :=
  headBytes 4 bytes.length ++ bytes.flatMap fun b => headBytes 0 b.toNat

/-- The low bytes of a number are as many as asked for. -/
theorem bigEndianOf_length (width n : Nat) : (bigEndianOf width n).length = width := by
  induction width with
  | zero => rfl
  | succ width ih => simp [bigEndianOf, ih]

/-- The low bytes of a number spell it modulo the power of 256 that they reach. -/
theorem bigEndian_bigEndianOf (width n : Nat) :
    bigEndian (bigEndianOf width n) = n % Nat.pow 256 width := by
  have go (width : Nat) : ∀ start,
      (bigEndianOf width n).foldl (fun m (b : UInt8) => 256 * m + b.toNat) start =
        start * Nat.pow 256 width + n % Nat.pow 256 width := by
    induction width with
    | zero => intro start; simp [bigEndianOf, Nat.mod_one]
    | succ width ih =>
      intro start
      have byte : (UInt8.ofNat (n / Nat.pow 256 width)).toNat =
          n / Nat.pow 256 width % 256 := rfl
      have next : Nat.pow 256 (width + 1) = Nat.pow 256 width * 256 := rfl
      rw [bigEndianOf, List.foldl_cons, ih, byte, next, Nat.mod_mul]
      grind
  simpa [bigEndian] using go width 0

end CredentialCeremony.Cbor
