import CredentialCeremony.Text.Blank
import CredentialCeremony.Web.Domain.Basic
import CredentialCeremony.Web.Percent

set_option autoImplicit false

/-!
# Hosts

The host of an address in its normal form. A special address has a domain in ASCII, an IPv4 address
as four numbers, or an IPv6 address in brackets with its longest run of zeros left out. Any other
address has a host that is kept as it is.
-/

namespace CredentialCeremony.Host

/-- The digits of a number in the given base, where it may have a value. -/
def numberIn? (base : Nat) (digits : List Char) : Option Nat :=
  digits.foldlM (fun n c => do
    let d ← Text.hexValue? c
    if d < base then some (base * n + d) else none) 0

/-- A number of an IPv4 address: hexadecimal after `0x`, octal after `0`, and decimal otherwise. -/
def ipv4Number? (text : List Char) : Option Nat :=
  match text with
  | [] => none
  | '0' :: 'x' :: digits | '0' :: 'X' :: digits => numberIn? 16 digits
  | '0' :: d :: digits => numberIn? 8 (d :: digits)
  | digits => numberIn? 10 digits

/-- The labels of a domain; a dot at the end is ignored. -/
def labels (domain : List Char) : List (List Char) :=
  let all := Text.cut (· == '.') domain
  if 1 < all.length ∧ all.getLast? = some [] then all.dropLast else all

/-- Whether a domain has to be an IPv4 address, because its last label is a number. -/
def endsInNumber (domain : List Char) : Bool :=
  match (labels domain).getLast? with
  | none => false
  | some last => (!last.isEmpty && last.all Char.isDigit) || (ipv4Number? last).isSome

/-- The four numbers of an IPv4 address. The last part stands for all numbers not given. -/
def ipv4? (domain : List Char) : Option (List Nat) := do
  let parts := labels domain
  if 4 < parts.length then none
  let numbers ← parts.mapM ipv4Number?
  let last ← numbers.getLast?
  let first := numbers.dropLast
  if first.any fun n => 255 < n then none
  if Nat.pow 256 (5 - numbers.length) ≤ last then none
  let free := 4 - first.length
  return first ++ (List.range free).map fun i => last / Nat.pow 256 (free - 1 - i) % 256

/-- The eight pieces that one side of an IPv6 address spells; an IPv4 address may stand at its
end. -/
def ipv6Pieces? (text : List Char) : Option (List Nat) :=
  if text.isEmpty then some []
  else
    let groups := Text.cut (· == ':') text
    let go (group : List Char) (isLast : Bool) : Option (List Nat) :=
      if isLast ∧ group.contains '.' then do
        let parts := Text.cut (· == '.') group
        if parts.length ≠ 4 then none
        let numbers ← parts.mapM fun part =>
          if part.isEmpty ∨ (1 < part.length ∧ part.head? = some '0') ∨ ¬ part.all Char.isDigit then
            none
          else (numberIn? 10 part).filter (· < 256)
        match numbers with
        | [a, b, c, d] => some [256 * a + b, 256 * c + d]
        | _ => none
      else if group.isEmpty ∨ 4 < group.length then none
      else (numberIn? 16 group).map fun n => [n]
    let count := groups.length
    (groups.zipIdx.mapM fun (group, i) => go group (i + 1 == count)).map List.flatten

/-- Splits a text at the first double colon. -/
def splitDoubleColon : List Char → Option (List Char × List Char)
  | [] => none
  | ':' :: ':' :: rest => some ([], rest)
  | c :: rest => (splitDoubleColon rest).map fun (front, back) => (c :: front, back)

/-- The eight pieces of an IPv6 address. -/
def ipv6? (text : List Char) : Option (List Nat) := do
  match splitDoubleColon text with
  | none =>
    let pieces ← ipv6Pieces? text
    if pieces.length = 8 then some pieces else none
  | some (front, back) =>
    if front.contains '.' then none
    let front ← ipv6Pieces? front
    let back ← ipv6Pieces? back
    let given := front.length + back.length
    if given < 8 then some (front ++ List.replicate (8 - given) 0 ++ back) else none

/-- The first longest run of at least two zeros: its place and length. -/
def longestZeros (pieces : List Nat) : Option (Nat × Nat) :=
  let runs := (List.range pieces.length).map fun i =>
    (i, ((pieces.drop i).takeWhile (· == 0)).length)
  let best := runs.foldl (fun best run => if best.2 < run.2 then run else best) (0, 1)
  if 1 < best.2 then some best else none

/-- A piece in lower-case hexadecimal. -/
def pieceText (n : Nat) : List Char := Nat.toDigits 16 n

/-- An IPv6 address without brackets. -/
def ipv6Text (pieces : List Nat) : List Char :=
  let joined (pieces : List Nat) := [':'].intercalate (pieces.map pieceText)
  match longestZeros pieces with
  | none => joined pieces
  | some (start, length) =>
    joined (pieces.take start) ++ [':', ':'] ++ joined (pieces.drop (start + length))

/-- The characters that no host may have. -/
def isForbidden (c : Char) : Bool :=
  ['\x00', '\t', '\n', '\r', ' ', '#', '/', ':', '<', '>', '?', '@', '[', '\\', ']', '^',
    '|'].contains c

/-- The characters that no domain may have. -/
def isForbiddenInDomain (c : Char) : Bool :=
  isForbidden c || c.toNat < 0x20 || c == '%' || c.toNat == 0x7F

/-- The normal form of the host of a special address. -/
def special? (text : List Char) : Option (List Char) := do
  let decoded ← ofUtf8? (Percent.decode text)
  let domain ← Domain.toAscii? decoded.toList
  if domain.isEmpty ∨ domain.any isForbiddenInDomain then none
  if endsInNumber domain then
    let numbers ← ipv4? domain
    some (['.'].intercalate (numbers.map (Nat.toDigits 10)))
  else some domain

/-- The normal form of a host: an address in brackets, a domain, or a host kept as it is. -/
def parse? (isSpecial : Bool) (text : List Char) : Option (List Char) :=
  match text with
  | '[' :: rest =>
    if rest.getLast? = some ']' then
      (ipv6? rest.dropLast).map fun pieces => '[' :: ipv6Text pieces ++ [']']
    else none
  | text =>
    if isSpecial then special? text
    else if text.any isForbidden then none
    else some (Percent.encode Percent.isControl text)

end CredentialCeremony.Host
