import CredentialCeremony.Text.Unprintable

set_option autoImplicit false

/-!
# Quoted texts

`Text.quoted` writes a text between quotation marks so that nothing in it is lost to the eye: the
marks and backslashes are escaped, the common controls have a letter, and every other character
without a mark of its own is written by its number in lower-case hexadecimal. Messages and log
entries show texts in this form.
-/

namespace CredentialCeremony.Text

/-- The digits of a number in lower-case hexadecimal, without leading zeros. -/
def hexadecimal (n : Nat) : String := String.ofList (Nat.toDigits 16 n)

/-- A character as it stands inside quotation marks. -/
def quotedChar (c : Char) : String :=
  match c with
  | '\x00' => "\\0"
  | '\t' => "\\t"
  | '\r' => "\\r"
  | '\n' => "\\n"
  | '"' => "\\\""
  | '\\' => "\\\\"
  | c => if isUnprintable c then "\\u\x7b" ++ hexadecimal c.toNat ++ "\x7d" else c.toString

/-- The text between quotation marks. -/
def quoted (s : String) : String :=
  "\"" ++ String.join (s.toList.map quotedChar) ++ "\""

/-- An optional text, with the word that tells whether there is one. -/
def quotedOption : Option String → String
  | none => "None"
  | some s => "Some(" ++ quoted s ++ ")"

end CredentialCeremony.Text
