import CredentialCeremony.Text.Composition
import CredentialCeremony.Web.Domain.Direction
import CredentialCeremony.Web.Domain.Joining
import CredentialCeremony.Web.Domain.Mapping
import CredentialCeremony.Web.Domain.Punycode

set_option autoImplicit false

/-!
# Labels

A label is a part of a domain between dots. It is read either as it is or, after the prefix `xn--`,
from its spelling in ASCII, and it is written in ASCII.

Main statements: `ascii_of_unmarked` (a label in ASCII without the prefix is written as it is read)
and `normal?_nil`.
-/

namespace CredentialCeremony.Domain

/-- A text in the one spelling that a domain has for it: mapped, and composed. -/
def normal? (text : List Char) : Option (List Char) :=
  (text.mapM mapping?).map fun images => Text.composed images.flatten

theorem normal?_nil : normal? [] = some [] := rfl

/-- Whether a character is in ASCII. -/
def isAscii (c : Char) : Bool := c.toNat < 0x80

/-- A label: its characters, and the text in ASCII that stands for them. -/
structure Label where
  letters : List Char
  ascii : List Char
  deriving DecidableEq, Repr, Inhabited

namespace Label

/-- The prefix of a label that is spelled in ASCII. -/
def codeMark : List Char := ['x', 'n', '-', '-']

/-- The most characters of a label that has some beyond ASCII. -/
def longestLabel : Nat := 1000

/-- The most characters of a spelling behind the prefix. -/
def longestSpelling : Nat := 2000

/-- The label spelled in ASCII behind the prefix. It has to be spelled as it is written, so its
characters are normal, and some of them are beyond ASCII. -/
def spelled? (code : List Char) : Option Label := do
  if code.isEmpty ∨ code.getLast? = some '-' ∨ longestSpelling < code.length then none
  if ¬ code.all isAscii then none
  let letters ← Punycode.decode? code
  if normal? letters = some letters then some ⟨letters, codeMark ++ code⟩ else none

/-- The label with the given characters. -/
def plain (letters : List Char) : Label :=
  if letters.all isAscii then ⟨letters, letters⟩
  else ⟨letters, codeMark ++ Punycode.encode letters⟩

/-- Whether the characters of a label start with no mark, have their joiners where they show, and
are few enough. -/
def isWellFormed (letters : List Char) : Bool :=
  !letters.head?.any Text.isMark && joinersInPlace [] letters &&
    (letters.all isAscii || letters.length ≤ longestLabel)

/-- Reads a label of a normal text. -/
def read? (text : List Char) : Option Label :=
  if codeMark.isPrefixOf text then
    (spelled? (text.drop codeMark.length)).filter fun label => isWellFormed label.letters
  else if isWellFormed text then some (plain text)
  else none

/-- A label in ASCII without the prefix is written as it is read. -/
theorem ascii_of_unmarked {text : List Char} {label : Label} (ascii : text.all isAscii = true)
    (unmarked : codeMark.isPrefixOf text = false) (h : read? text = some label) :
    label.ascii = text := by
  simp only [read?, unmarked, plain, ascii, if_true, Bool.false_eq_true, if_false] at h
  split at h
  · exact Option.some.inj h ▸ rfl
  · exact absurd h (by simp)

end Label
end CredentialCeremony.Domain
