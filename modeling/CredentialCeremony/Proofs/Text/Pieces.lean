import CredentialCeremony.Text.Blank
import Mathlib.Data.List.Forall2
import Mathlib.Data.List.TakeWhile

set_option autoImplicit false

/-!
# Pieces and runs of a text

A text is cut at a separator into the pieces that it is joined of, if these hold no separator
(`cut_intercalate`). The core of a text has blanks around it and none at its ends. The longest run at
the front of a text is the one beyond which no run goes.

Main statements: cutting finds the pieces of a text (`isSplit_iff`), trimming finds its core
(`isCore_iff`), and the longest run is what is taken while the characters belong to it
(`isLongestRun_iff`).
-/

namespace CredentialCeremony.Text

/-- To cut at separators is to split the list of characters there. -/
theorem cut_eq_splitOnP (p : Char → Bool) (s : List Char) : cut p s = s.splitOnP p := by
  induction s with
  | nil => rfl
  | cons c s ih =>
    rw [List.splitOnP_cons_eq_if_modifyHead, cut]
    split
    · rw [ih]
    · rw [← ih]
      cases hcut : cut p s with
      | nil => exact absurd hcut (cut_ne_nil p s)
      | cons piece pieces => rfl

/-- Pieces without separators are cut apart again. -/
theorem cut_intercalate {sep : Char} {pieces : List (List Char)} (hne : pieces ≠ [])
    (h : ∀ piece ∈ pieces, sep ∉ piece) :
    cut (· == sep) ([sep].intercalate pieces) = pieces := by
  rw [cut_eq_splitOnP]
  exact List.splitOn_intercalate sep h hne

/-- The text is these pieces with separators between them, and no piece holds a separator. -/
structure IsSplit (sep : Char) (pieces : List (List Char)) (text : List Char) : Prop where
  ne_nil : pieces ≠ []
  joined : text = [sep].intercalate pieces
  sep_not_mem : ∀ piece ∈ pieces, sep ∉ piece

theorem isSplit_cut (sep : Char) (text : List Char) : IsSplit sep (cut (· == sep) text) text := by
  refine ⟨cut_ne_nil _ text, (intercalate_cut sep text).symm, ?_⟩
  intro piece hpiece hsep
  have hno := not_separator_of_mem_cut hpiece sep hsep
  rw [beq_self_eq_true] at hno
  cases hno

/-- A text is split in one way, and cutting finds it. -/
theorem isSplit_iff {sep : Char} {pieces : List (List Char)} {text : List Char} :
    IsSplit sep pieces text ↔ cut (· == sep) text = pieces := by
  constructor
  · rintro ⟨hne, rfl, hno⟩
    exact cut_intercalate hne hno
  · rintro rfl
    exact isSplit_cut sep text

/-- What is joined of texts for certain things, none of which holds a separator, is split into them. -/
theorem IsSplit.exists_joined_iff {α : Type} {sep : Char} {pieces : List (List Char)}
    {text : List Char} {R : List Char → α → Prop} {xs : List α} (hsplit : IsSplit sep pieces text)
    (hno : ∀ piece x, R piece x → sep ∉ piece) :
    (∃ others, others ≠ [] ∧ text = [sep].intercalate others ∧ List.Forall₂ R others xs) ↔
      List.Forall₂ R pieces xs := by
  constructor
  · rintro ⟨others, hne, rfl, hothers⟩
    have hboth : List.Forall₂ (fun piece x => sep ∉ piece ∧ R piece x) others xs :=
      hothers.imp fun piece x hx => ⟨hno piece x hx, hx⟩
    have hsep := ((List.forall₂_and_left _ _).1 hboth).1
    rwa [← isSplit_iff.1 hsplit, cut_intercalate hne hsep]
  · intro h
    exact ⟨pieces, hsplit.ne_nil, hsplit.joined, h⟩

/-- The characters of a piece are characters of the text. -/
theorem mem_of_mem_cut {p : Char → Bool} {s piece : List Char} {c : Char} (hc : c ∈ piece)
    (hpiece : piece ∈ cut p s) : c ∈ s := by
  induction s generalizing piece with
  | nil =>
    rw [List.mem_singleton.1 hpiece] at hc
    exact hc
  | cons d rest ih =>
    rw [cut] at hpiece
    split at hpiece
    · rcases List.mem_cons.1 hpiece with rfl | hpiece
      · cases hc
      · exact List.mem_cons_of_mem d (ih hc hpiece)
    · obtain ⟨first, pieces, hcut⟩ := List.exists_cons_of_ne_nil (cut_ne_nil p rest)
      rw [hcut] at hpiece ih
      rcases List.mem_cons.1 hpiece with rfl | hpiece
      · rcases List.mem_cons.1 hc with rfl | hc
        · exact List.mem_cons_self
        · exact List.mem_cons_of_mem d (ih hc List.mem_cons_self)
      · exact List.mem_cons_of_mem d (ih hc (List.mem_cons_of_mem first hpiece))

/-- The text has blanks around this core, which neither starts nor ends with a blank. -/
structure IsCore (core text : List Char) : Prop where
  around : ∃ before behind, text = before ++ core ++ behind ∧
    (∀ c ∈ before, isBlank c = true) ∧ ∀ c ∈ behind, isBlank c = true
  start : ∀ c ∈ core.head?, isBlank c = false
  finish : ∀ c ∈ core.getLast?, isBlank c = false

/-- Blanks in front of a text that starts with none are removed, and no more. -/
theorem trimStart_append {before rest : List Char} (hbefore : ∀ c ∈ before, isBlank c = true)
    (hrest : ∀ c ∈ rest.head?, isBlank c = false) : trimStart (before ++ rest) = rest := by
  rw [trimStart, List.dropWhile_append_of_pos hbefore]
  cases rest with
  | nil => rfl
  | cons c rest =>
    apply List.dropWhile_cons_of_neg
    rw [hrest c rfl]
    exact Bool.false_ne_true

/-- What is left of a text starts with no blank and has the blanks in front of it. -/
theorem trimStart_spec (s : List Char) : (∀ c ∈ (trimStart s).head?, isBlank c = false) ∧
    ∃ before, s = before ++ trimStart s ∧ ∀ c ∈ before, isBlank c = true := by
  constructor
  · intro c hc
    have hnot := List.head?_dropWhile_not isBlank s
    rw [trimStart, Option.mem_def] at hc
    rw [hc] at hnot
    simpa using hnot
  · exact ⟨s.takeWhile isBlank, List.takeWhile_append_dropWhile.symm,
      fun c hc => List.mem_takeWhile_imp hc⟩

/-- Blanks are removed at both ends. -/
theorem IsCore.trim_eq {core text : List Char} (h : IsCore core text) : trim text = core := by
  obtain ⟨⟨before, behind, rfl, hbefore, hbehind⟩, hstart, hfinish⟩ := h
  cases core with
  | nil =>
    have hblank : ∀ c ∈ before ++ [] ++ behind, isBlank c = true := by
      rw [List.append_nil]
      exact List.forall_mem_append.2 ⟨hbefore, hbehind⟩
    have hnone : trimStart (before ++ [] ++ behind ++ []) = [] := trimStart_append hblank hstart
    rw [List.append_nil] at hnone
    rw [trim, hnone]
    rfl
  | cons c core =>
    have hfront : trimStart (before ++ (c :: core ++ behind)) = c :: core ++ behind :=
      trimStart_append hbefore hstart
    have hback : trimStart (behind.reverse ++ (c :: core).reverse) = (c :: core).reverse := by
      apply trimStart_append
      · exact fun c hc => hbehind c (List.mem_reverse.1 hc)
      · rwa [List.head?_reverse]
    rw [trim, List.append_assoc, hfront, List.reverse_append, hback, List.reverse_reverse]

theorem isCore_trim (text : List Char) : IsCore (trim text) text := by
  obtain ⟨hstart, before, htext, hbefore⟩ := trimStart_spec text
  obtain ⟨hfinish, behind, hrest, hbehind⟩ := trimStart_spec (trimStart text).reverse
  have hcore : trimStart text = trim text ++ behind.reverse := by
    rw [trim, ← List.reverse_append, ← hrest, List.reverse_reverse]
  refine ⟨⟨before, behind.reverse, ?_, hbefore, ?_⟩, ?_, ?_⟩
  · rw [List.append_assoc, ← hcore]
    exact htext
  · exact fun c hc => hbehind c (List.mem_reverse.1 hc)
  · intro c hc
    apply hstart c
    rw [hcore, List.head?_append, Option.mem_def.1 hc]
    rfl
  · rwa [trim, List.getLast?_reverse]

/-- A text has one core, and trimming finds it. -/
theorem isCore_iff {core text : List Char} : IsCore core text ↔ trim text = core := by
  constructor
  · exact IsCore.trim_eq
  · rintro rfl
    exact isCore_trim text

/-- A text without blanks is its own core. -/
theorem isCore_of_no_blank {s : List Char} (h : ∀ c ∈ s, isBlank c = false) : IsCore s s := by
  refine ⟨⟨[], [], ?_, List.forall_mem_nil _, List.forall_mem_nil _⟩, ?_, ?_⟩
  · rw [List.append_nil]
    rfl
  · exact fun c hc => h c (List.mem_of_mem_head? hc)
  · exact fun c hc => h c (List.mem_of_mem_getLast? hc)

/-- Blanks around a text that holds none are removed. -/
theorem trim_of_blanks {before core behind : List Char} (hbefore : ∀ c ∈ before, isBlank c = true)
    (hcore : ∀ c ∈ core, isBlank c = false) (hbehind : ∀ c ∈ behind, isBlank c = true) :
    trim (before ++ core ++ behind) = core := by
  obtain ⟨-, hstart, hfinish⟩ := isCore_of_no_blank hcore
  exact IsCore.trim_eq ⟨⟨before, behind, rfl, hbefore, hbehind⟩, hstart, hfinish⟩

theorem trim_of_no_blank {s : List Char} (h : ∀ c ∈ s, isBlank c = false) : trim s = s :=
  (isCore_of_no_blank h).trim_eq

theorem isBlank_of_isDigit {c : Char} (h : c.isDigit = true) : isBlank c = false := by
  have hrange := Char.isDigit_iff_toNat.1 h
  have hzero : '0'.toNat = 48 := rfl
  have hnine : '9'.toNat = 57 := rfl
  simp only [isBlank, Bool.or_eq_false_iff, Bool.and_eq_false_iff, decide_eq_false_iff_not,
    beq_eq_false_iff_ne]
  omega

/-- The run stands at the front of the text, and no longer one does. -/
structure IsLongestRun (p : Char → Bool) (run text : List Char) : Prop where
  prefix_text : run <+: text
  all : ∀ c ∈ run, p c = true
  longest : ∀ other, other <+: text → (∀ c ∈ other, p c = true) → other.length ≤ run.length

theorem prefix_takeWhile {p : Char → Bool} {run text : List Char} (h : run <+: text)
    (hall : ∀ c ∈ run, p c = true) : run <+: text.takeWhile p := by
  obtain ⟨rest, rfl⟩ := h
  rw [List.takeWhile_append_of_pos hall]
  exact List.prefix_append run _

theorem isLongestRun_iff {p : Char → Bool} {run text : List Char} :
    IsLongestRun p run text ↔ run = text.takeWhile p := by
  constructor
  · rintro ⟨hfront, hall, hlongest⟩
    have hbound := hlongest (text.takeWhile p) (List.takeWhile_prefix p)
      fun c hc => List.mem_takeWhile_imp hc
    exact (prefix_takeWhile hfront hall).eq_of_length_le hbound
  · rintro rfl
    refine ⟨List.takeWhile_prefix p, fun c hc => List.mem_takeWhile_imp hc, ?_⟩
    intro other hfront hall
    exact (prefix_takeWhile hfront hall).length_le

end CredentialCeremony.Text
