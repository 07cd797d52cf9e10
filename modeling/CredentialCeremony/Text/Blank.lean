set_option autoImplicit false

/-!
# Blanks and parts of a text

`Text.isBlank` is the white space of written text in every script. `Text.trim` removes it at both
ends, `Text.parts` cuts a text at it, and `Text.cut` cuts a text at every separator.

Main statements: cutting a text at a separator is undone by joining the pieces with it
(`intercalate_cut`), and no piece holds a separator (`not_separator_of_mem_cut`).
-/

namespace CredentialCeremony.Text

/-- The code points with the White_Space property. -/
def isBlank (c : Char) : Bool :=
  let n := c.toNat
  (9 ≤ n && n ≤ 13) || n == 0x20 || n == 0x85 || n == 0xA0 || n == 0x1680 ||
    (0x2000 ≤ n && n ≤ 0x200A) || n == 0x2028 || n == 0x2029 || n == 0x202F || n == 0x205F ||
    n == 0x3000

/-- The text without the blanks at its start. -/
def trimStart (s : List Char) : List Char := s.dropWhile isBlank

/-- The text without the blanks at either end. -/
def trim (s : List Char) : List Char := (trimStart (trimStart s).reverse).reverse

/-- Cuts a text at every separator; the pieces between them may be empty, and there is always one
piece more than there are separators. -/
def cut (isSeparator : Char → Bool) : List Char → List (List Char)
  | [] => [[]]
  | c :: rest =>
    if isSeparator c then [] :: cut isSeparator rest
    else match cut isSeparator rest with
      | [] => [[c]]
      | piece :: pieces => (c :: piece) :: pieces

/-- The runs between blanks, in order. -/
def parts (s : List Char) : List (List Char) := (cut isBlank s).filter (fun piece => !piece.isEmpty)

theorem cut_ne_nil (p : Char → Bool) (s : List Char) : cut p s ≠ [] := by
  induction s with
  | nil => simp [cut]
  | cons c rest ih =>
    by_cases h : p c
    · simp [cut, h]
    · simp only [cut, h, Bool.false_eq_true, if_false]
      cases cut p rest <;> simp

/-- Joining the pieces with the separator gives the text back. -/
theorem intercalate_cut (sep : Char) (s : List Char) :
    [sep].intercalate (cut (· == sep) s) = s := by
  induction s with
  | nil => rfl
  | cons c rest ih =>
    obtain ⟨piece, pieces, hp⟩ := List.exists_cons_of_ne_nil (cut_ne_nil (· == sep) rest)
    rw [hp] at ih
    by_cases h : c = sep
    · subst h
      simp only [cut, beq_self_eq_true, if_true, hp]
      rw [List.intercalate_cons_cons, ih]
      rfl
    · have hc : (c == sep) = false := by simpa using h
      simp only [cut, hc, Bool.false_eq_true, if_false, hp]
      cases pieces with
      | nil => simpa using ih
      | cons q qs =>
        rw [List.intercalate_cons_cons] at ih ⊢
        simp only [List.cons_append, ih]

/-- No piece holds a separator. -/
theorem not_separator_of_mem_cut {p : Char → Bool} {s piece : List Char} (h : piece ∈ cut p s) :
    ∀ c ∈ piece, p c = false := by
  induction s generalizing piece with
  | nil => simp_all [cut]
  | cons c rest ih =>
    by_cases hc : p c = true
    · simp only [cut, hc, if_true, List.mem_cons] at h
      rcases h with rfl | h
      · simp
      · exact ih h
    · obtain ⟨first, pieces, hp⟩ := List.exists_cons_of_ne_nil (cut_ne_nil p rest)
      simp only [cut, hc, Bool.false_eq_true, if_false, hp, List.mem_cons] at h
      rw [hp] at ih
      rcases h with rfl | h
      · intro d hd
        rcases List.mem_cons.1 hd with rfl | hd
        · simpa using hc
        · exact ih List.mem_cons_self d hd
      · exact ih (List.mem_cons_of_mem first h)

end CredentialCeremony.Text
