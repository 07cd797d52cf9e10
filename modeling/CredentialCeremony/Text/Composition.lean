import CredentialCeremony.Text.Decomposition
import CredentialCeremony.Text.MarkOrder

set_option autoImplicit false

/-!
# Composed text

One text may be spelled in several ways: a letter with a mark is one character or two, and marks
stand in any order. In a composed text every character is taken apart, the marks are ordered, and
what can be written as one character is.

Main statement: `composed_eq_self` (a text without marks, in which no two characters compose and
nothing can be taken apart, stays).
-/

namespace CredentialCeremony.Text

/-- Composes an ordered text behind a character that takes up marks. `passed` holds the marks that
it could not take up, the last of the class `last`; a mark of that class is hidden behind them. -/
def composeAfter (base : Char) (passed : List Char) (last : Nat) : List Char → List Char
  | [] => base :: passed
  | c :: rest =>
    let isOpen := passed.isEmpty || last < markClass c
    match if isOpen then compositeOf? base c else none with
    | some whole => composeAfter whole passed last rest
    | none =>
      if markClass c = 0 then base :: passed ++ composeAfter c [] 0 rest
      else composeAfter base (passed ++ [c]) (markClass c) rest

/-- Composes an ordered text. -/
def compose : List Char → List Char
  | [] => []
  | c :: rest => composeAfter c [] 0 rest

/-- The composed spelling of a text. -/
def composed (text : List Char) : List Char := compose (ordered (text.flatMap decompose))

/-- Neighbours that do not compose stay. -/
theorem composeAfter_eq_cons {base : Char} {text : List Char}
    (marks : ∀ c ∈ text, markClass c = 0)
    (apart : ∀ a ∈ base :: text, ∀ b ∈ text, compositeOf? a b = none) :
    composeAfter base [] 0 text = base :: text := by
  induction text generalizing base with
  | nil => rfl
  | cons c rest ih =>
    have here : compositeOf? base c = none := apart base (by simp) c (by simp)
    have class_eq : markClass c = 0 := marks c (by simp)
    have tail : composeAfter c [] 0 rest = c :: rest :=
      ih (fun d hd => marks d (List.mem_cons_of_mem c hd))
        (fun a ha b hb => apart a (List.mem_cons_of_mem base ha) b (List.mem_cons_of_mem c hb))
    simp [composeAfter, here, class_eq, tail]

/-- A text without marks, in which no two characters compose and nothing can be taken apart,
stays. -/
theorem composed_eq_self {text : List Char} (marks : ∀ c ∈ text, markClass c = 0)
    (whole : ∀ c ∈ text, decompose c = [c])
    (apart : ∀ a ∈ text, ∀ b ∈ text, compositeOf? a b = none) : composed text = text := by
  have parts : text.flatMap decompose = text := by
    induction text with
    | nil => rfl
    | cons c rest ih =>
      have tail := ih (fun d hd => marks d (List.mem_cons_of_mem c hd))
        (fun d hd => whole d (List.mem_cons_of_mem c hd))
        (fun a ha b hb => apart a (List.mem_cons_of_mem c ha) b (List.mem_cons_of_mem c hb))
      simp [whole c List.mem_cons_self, tail]
  rw [composed, parts, ordered_eq_self marks]
  cases text with
  | nil => rfl
  | cons c rest =>
    exact composeAfter_eq_cons (fun d hd => marks d (List.mem_cons_of_mem c hd))
      (fun a ha b hb => apart a ha b (List.mem_cons_of_mem c hb))

end CredentialCeremony.Text
