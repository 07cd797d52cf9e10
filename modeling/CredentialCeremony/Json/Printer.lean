import CredentialCeremony.Json.Basic
import CredentialCeremony.Number.Shortest
import CredentialCeremony.Text.Hexadecimal

set_option autoImplicit false

/-!
# JSON text of a value

`Json.text` writes a value without white space. In a string only the quotation mark, the backslash
and the controls below U+0020 are escaped; all other characters stand for themselves.
-/

namespace CredentialCeremony.Json

/-- A character as it stands inside a string. -/
def escaped (c : Char) : List Char :=
  if c = '"' then ['\\', '"']
  else if c = '\\' then ['\\', '\\']
  else if c.toNat < 0x20 then
    match c.toNat with
    | 8 => ['\\', 'b']
    | 9 => ['\\', 't']
    | 10 => ['\\', 'n']
    | 12 => ['\\', 'f']
    | 13 => ['\\', 'r']
    | n => ['\\', 'u', '0', '0', Text.lowerHex (n / 16), Text.lowerHex (n % 16)]
  else [c]

/-- A string between quotation marks. -/
def stringText (s : String) : String :=
  "\"" ++ String.ofList (s.toList.flatMap escaped) ++ "\""

/-- A number. -/
def numberText : Number → String
  | .integer n => toString n
  | .double x => x.text

mutual

/-- The text of a value, without white space. -/
def text : Json → String
  | .null => "null"
  | .bool b => if b then "true" else "false"
  | .number n => numberText n
  | .string s => stringText s
  | .array items => "[" ++ itemsText items ++ "]"
  | .object members => "\x7b" ++ membersText members ++ "\x7d"

/-- Elements separated by commas. -/
def itemsText : List Json → String
  | [] => ""
  | [json] => json.text
  | json :: rest => json.text ++ "," ++ itemsText rest

/-- Members separated by commas. -/
def membersText : List (String × Json) → String
  | [] => ""
  | [(name, json)] => stringText name ++ ":" ++ json.text
  | (name, json) :: rest => stringText name ++ ":" ++ json.text ++ "," ++ membersText rest

end

end CredentialCeremony.Json
