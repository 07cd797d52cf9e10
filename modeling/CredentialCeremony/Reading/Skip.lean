import CredentialCeremony.Reading.Container

set_option autoImplicit false

/-!
# Passing over a value

A member that a record does not know is passed over: its value has to be well-formed, but it may be
nested to any depth, its numbers may be of any size, and its escapes need not make characters.
`Reader.skip` holds the containers that are open around the place as a list, so that depth costs
no recursion.
-/

namespace CredentialCeremony

/-- Passes the rest of a string. -/
def passString : Bytes → Except Bytes (Unit × Bytes)
  | [] => .error []
  | b :: text =>
    match Char.ofUInt8 b with
    | '"' => .ok ((), text)
    | '\\' =>
      match text with
      | [] => .error []
      | e :: text =>
        if Char.ofUInt8 e = 'u' then
          match text with
          | h₁ :: h₂ :: h₃ :: h₄ :: text =>
            if (hexUnit? h₁ h₂ h₃ h₄).isSome then passString text else .error text
          | _ => .error []
        else if (escapedByte? e).isSome then passString text
        else .error text
    | _ => if b < 0x20 then .error text else passString text

/-- Passes at least one digit and all that follow it. -/
def passDigits (text : Bytes) : Except Bytes Bytes :=
  let (digits, rest) := takeDigits text
  if digits.isEmpty then .error text else .ok rest

/-- Passes the exponent of a numeral, if it has one. -/
def passExponent (text : Bytes) : Except Bytes Bytes :=
  match exponentMark? text with
  | none => .ok text
  | some [] => .error []
  | some (b :: rest) =>
    match Char.ofUInt8 b with
    | '+' => passDigits rest
    | '-' => passDigits rest
    | _ => passDigits (b :: rest)

/-- Passes the fraction of a numeral, if it has one. -/
def passFraction : Bytes → Except Bytes Bytes
  | [] => .ok []
  | b :: text => if Char.ofUInt8 b = '.' then passDigits text else .ok (b :: text)

/-- Passes the whole part of a numeral, in which no digit follows a leading zero. -/
def passWhole : Bytes → Except Bytes Bytes
  | [] => .error []
  | b :: text =>
    if Char.ofUInt8 b = '0' then
      if (takeDigits text).1.isEmpty then .ok text else .error text
    else passDigits (b :: text)

/-- Passes a numeral behind its sign. -/
def passNumeral (text : Bytes) : Except Bytes (Unit × Bytes) := do
  let text ← passWhole text
  let text ← passFraction text
  let text ← passExponent text
  return ((), text)

namespace Reader

/-- The two kinds of values that hold others. -/
inductive Container where
  | array
  | object
  deriving DecidableEq, Repr

/-- The character that ends a container. -/
def Container.closing : Container → Char
  | .array => ']'
  | .object => '\x7d'

/-- Passes the name and colon of a member, whose opening mark comes next. -/
def skipName : Reader Unit := do
  match ← peek with
  | some '"' => do advance; scan passString; colon
  | _ => fail

/-- Goes on to the next value inside the innermost open container. -/
def Container.next : Container → Reader Unit
  | .array => return ()
  | .object => skipName

/-- Passes a word, number or string that starts with the given next character. -/
def skipScalar (c : Char) : Reader Unit :=
  match c with
  | 'n' => do advance; word "ull"
  | 't' => do advance; word "rue"
  | 'f' => do advance; word "alse"
  | '-' => do advance; scan passNumeral
  | '"' => do advance; scan passString
  | c => if c.isDigit then scan passNumeral else fail

/-- Behind a value: leaves every container that ends here. The answer is the containers still open
if a comma leads to another value, and `none` if all have been left. -/
def leave : (containers : List Container) → Reader (Option (List Container))
  | [] => return none
  | inner :: outer => do
    match ← peek with
    | none => fail
    | some c =>
      if c = ',' then do
        advance
        inner.next
        return some (inner :: outer)
      else if c = inner.closing then do
        advance
        leave outer
      else fail

/-- Enters a container, or leaves it at once if it is empty. -/
def enter (inner : Container) (outer : List Container) : Reader (Option (List Container)) := do
  advance
  match ← peek with
  | none => fail
  | some c =>
    if c = inner.closing then do
      advance
      leave outer
    else do
      inner.next
      return some (inner :: outer)

/-- Passes values until every container is left; a round passes one scalar or one opening. -/
def skipAlong : (clock : Bytes) → (containers : List Container) → Reader Unit
  | [], _ => fail
  | _ :: clock, containers => do
    let more ←
      match ← peek with
      | none => fail
      | some '[' => enter .array containers
      | some '\x7b' => enter .object containers
      | some c => do
        skipScalar c
        leave containers
    match more with
    -- the outermost container has been left, or there was none
    | none => return ()
    | some containers => skipAlong clock containers

/-- Passes over one value. -/
def skip : Reader Unit := fun c => skipAlong c.rest [] c

end Reader
end CredentialCeremony
