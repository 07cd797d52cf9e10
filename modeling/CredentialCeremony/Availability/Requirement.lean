import CredentialCeremony.Availability.Version
import CredentialCeremony.Schema.Basic

set_option autoImplicit false

/-!
# Requirements on a version

A requirement compares a version with a threshold. Its text is an operator and the threshold; no
operator means equality.

Main statement: a strict lower bound holds exactly of the greater versions (`accepts_greater_iff`).
-/

namespace CredentialCeremony

/-- How a version is compared with a threshold. -/
inductive Comparison where
  | greater
  | greaterOrEqual
  | less
  | lessOrEqual
  | equal
  deriving DecidableEq, Repr, Inhabited

namespace Comparison

/-- The operator in a text. -/
def symbol : Comparison → String
  | .greater => ">"
  | .greaterOrEqual => ">="
  | .less => "<"
  | .lessOrEqual => "<="
  | .equal => "="

/-- Whether the comparison holds of an order. -/
def holds : Comparison → Ordering → Bool
  | .greater, o => o.isGT
  | .greaterOrEqual, o => o.isGE
  | .less, o => o.isLT
  | .lessOrEqual, o => o.isLE
  | .equal, o => o.isEq

/-- The comparisons in the order in which their operators are looked for: an operator goes before
one that it starts with. -/
def inReadingOrder : List Comparison := [.greaterOrEqual, .lessOrEqual, .greater, .less, .equal]

/-- The comparison at the front of a text and what follows its operator; a text that starts with no
operator asks for equality. -/
def ofText (text : List Char) : Comparison × List Char :=
  match inReadingOrder.find? fun c => c.symbol.toList.isPrefixOf text with
  | some c => (c, text.drop c.symbol.toList.length)
  | none => (.equal, text)

end Comparison

/-- A constraint on a version. -/
structure Requirement where
  comparison : Comparison
  threshold : Version
  deriving DecidableEq, Repr, Inhabited

namespace Requirement

/-- Whether a version satisfies the requirement. -/
def accepts (r : Requirement) (v : Version) : Bool :=
  r.comparison.holds (Version.compare v r.threshold)

/-- Reads a requirement; the error quotes the text without the blanks around it. -/
def parse (text : String) : Except ReadError Requirement :=
  let trimmed := Text.trim text.toList
  let (comparison, rest) := Comparison.ofText trimmed
  match Version.ofText? rest with
  | some threshold => .ok ⟨comparison, threshold⟩
  | none => .error (.notVersion (String.ofList trimmed))

/-- The operator, a space and the threshold. -/
def text (r : Requirement) : String := r.comparison.symbol ++ " " ++ r.threshold.text

/-- A requirement in a document. -/
def schema : Schema Requirement := .spelled ⟨parse, text⟩

/-- A version satisfies a strict lower bound exactly if it is greater. -/
theorem accepts_greater_iff {t v : Version} :
    accepts ⟨.greater, t⟩ v = true ↔ Version.compare v t = .gt := by
  simp only [accepts, Comparison.holds]
  cases Version.compare v t <;> simp [Ordering.isGT]

end Requirement
end CredentialCeremony
