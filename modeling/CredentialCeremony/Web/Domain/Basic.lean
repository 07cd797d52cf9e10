import CredentialCeremony.Web.Domain.Label

set_option autoImplicit false

/-!
# Domains

A domain is a sequence of labels with dots between. It is read in any spelling and written in one,
in lower case and in ASCII; a domain that may be displayed as another one is refused.

Main statement: `toAscii?_nil`.
-/

namespace CredentialCeremony.Domain

/-- Whether the direction of writing is clear: a domain with a letter that is written from right to
left has only labels that obey the rule. -/
def isOrdered (labels : List Label) : Bool :=
  !(labels.any fun label => label.letters.any isRightToLeft) ||
    labels.all fun label => inOrder label.letters

/-- The labels of a domain. -/
def labels? (domain : List Char) : Option (List Label) := do
  let text ← normal? domain
  let labels ← (Text.cut (· == '.') text).mapM Label.read?
  if isOrdered labels then some labels else none

/-- A domain in lower case and in ASCII. -/
def toAscii? (domain : List Char) : Option (List Char) :=
  (labels? domain).map fun labels => ['.'].intercalate (labels.map Label.ascii)

theorem toAscii?_nil : toAscii? [] = some [] := rfl

end CredentialCeremony.Domain
