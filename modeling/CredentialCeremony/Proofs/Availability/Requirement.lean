import CredentialCeremony.Availability.Policy
import CredentialCeremony.Proofs.Availability.VersionText
import CredentialCeremony.Proofs.Schema.Standing
import CredentialCeremony.Proofs.Schema.Whole

set_option autoImplicit false

/-!
# How a requirement is written

A requirement is written as an operator or nothing, any blanks, and a version. Since no operator is
made of characters of a version or of blanks, it ends where the longest of them ends, and a text is
that of one requirement at most. A version in a text has at least one segment, so what is read off a
text can be written and read back.

Main statement: `Requirement.read_and_reread`.
-/

namespace CredentialCeremony

variable {core rest gap dotted : List Char} {text : String} {v : Version}

namespace Comparison

/-- How a comparison is written: as its operator or, if it is equality, as nothing. -/
inductive Written : List Char → Comparison → Prop where
  | symbol (c : Comparison) : Written c.symbol.toList c
  | nothing : Written [] .equal

/-- The characters that operators are made of. -/
def marks : List Char := ['<', '>', '=']

/-- What is found at the front of a text is an operator of the comparison, or nothing. -/
theorem written_ofText (text : List Char) :
    ∃ op, text = op ++ (ofText text).2 ∧ Written op (ofText text).1 := by
  unfold ofText
  split
  · rename_i c hfound
    have hfront := (List.find?_eq_some_iff_append.1 hfound).1
    rw [List.isPrefixOf_iff_prefix, List.prefix_iff_eq_append] at hfront
    exact ⟨_, hfront.symm, .symbol c⟩
  · exact ⟨[], rfl, .nothing⟩

/-- An operator is found where nothing behind it could belong to a longer one. -/
theorem ofText_append {op : List Char} {c : Comparison} (h : Written op c)
    (hrest : ∀ d ∈ rest.head?, d ∉ marks) : ofText (op ++ rest) = (c, rest) := by
  cases rest with
  | nil =>
    cases h with
    | symbol => cases c <;> rfl
    | nothing => rfl
  | cons d rest =>
    have hd : '<' ≠ d ∧ '>' ≠ d ∧ '=' ≠ d := by
      simpa [marks, eq_comm] using hrest d rfl
    cases h with
    | symbol => cases c <;> simp [ofText, inReadingOrder, symbol, hd]
    | nothing => simp [ofText, inReadingOrder, symbol, hd]

/-- An operator starts with no blank. -/
theorem exists_symbol_eq_cons (c : Comparison) :
    ∃ mark marks, c.symbol.toList = mark :: marks ∧ Text.isBlank mark = false := by
  cases c <;> exact ⟨_, _, rfl, rfl⟩

end Comparison

/-! ## Requirements -/

namespace Requirement

variable {r r' : Requirement}

/-- An operator or nothing, any blanks, and the threshold. -/
def Spelled (text : List Char) (r : Requirement) : Prop :=
  ∃ op gap dotted, text = op ++ (gap ++ dotted) ∧ Comparison.Written op r.comparison ∧
    (∀ c ∈ gap, Text.isBlank c = true) ∧ Version.Spelled dotted r.threshold

/-- Neither a blank nor a version has characters of an operator. -/
theorem not_mark_of_threshold (hgap : ∀ c ∈ gap, Text.isBlank c = true)
    (hdotted : Version.Spelled dotted v) : ∀ c ∈ gap ++ dotted, c ∉ Comparison.marks := by
  have hno : ∀ c ∈ Comparison.marks,
      Text.isBlank c = false ∧ c.isDigit = false ∧ c ≠ '+' ∧ c ≠ '.' := by
    rw [Comparison.marks, List.forall_mem_cons, List.forall_mem_cons, List.forall_mem_singleton]
    decide
  intro c hc hmark
  obtain ⟨hblank, hdigit, hplus, hdot⟩ := hno c hmark
  rcases List.mem_append.1 hc with hc | hc
  · exact Bool.false_ne_true (hblank.symm.trans (hgap c hc))
  · rcases hdotted.mem_cases hc with h | h | h
    · exact Bool.false_ne_true (hdigit.symm.trans h)
    · exact hplus h
    · exact hdot h

/-- A version is read behind blanks. -/
theorem ofText?_of_spelled (hgap : ∀ c ∈ gap, Text.isBlank c = true)
    (hdotted : Version.Spelled dotted v) : Version.ofText? (gap ++ dotted) = some v := by
  obtain ⟨-, hstart, hfinish⟩ := Text.isCore_of_no_blank hdotted.isBlank_eq_false
  apply (Version.ofText?_eq_some_iff_of_core _).2 hdotted
  refine ⟨⟨gap, [], ?_, hgap, List.forall_mem_nil _⟩, hstart, hfinish⟩
  rw [List.append_nil]

/-- What is read as a version and does not end with a blank is blanks and a text that spells it. -/
theorem exists_of_ofText? (hend : ∀ c ∈ rest.getLast?, Text.isBlank c = false)
    (h : Version.ofText? rest = some v) :
    ∃ gap dotted, rest = gap ++ dotted ∧ (∀ c ∈ gap, Text.isBlank c = true) ∧
      Version.Spelled dotted v := by
  have hcore := Text.isCore_trim rest
  obtain ⟨gap, behind, hrest, hgap, hbehind⟩ := hcore.around
  have hspelled := (Version.ofText?_eq_some_iff_of_core hcore).1 h
  cases hlast : behind.getLast? with
  | none =>
    rw [List.getLast?_eq_none_iff.1 hlast, List.append_nil] at hrest
    exact ⟨gap, _, hrest, hgap, hspelled⟩
  | some c =>
    have hc : c ∈ rest.getLast? := by
      rw [hrest, List.getLast?_append, hlast]
      rfl
    have hblank := hbehind c (List.mem_of_getLast? hlast)
    rw [hend c hc] at hblank
    cases hblank

/-- The comparison and the threshold of a text that spells a requirement are found in it. -/
theorem Spelled.ofText_eq (h : Spelled core r) :
    (Comparison.ofText core).1 = r.comparison ∧
      Version.ofText? (Comparison.ofText core).2 = some r.threshold := by
  obtain ⟨op, gap, dotted, rfl, hwritten, hgap, hdotted⟩ := h
  have hmarks := not_mark_of_threshold hgap hdotted
  rw [Comparison.ofText_append hwritten fun d hd => hmarks d (List.mem_of_mem_head? hd)]
  exact ⟨rfl, ofText?_of_spelled hgap hdotted⟩

/-- A text spells one requirement at most. -/
theorem Spelled.unique (h : Spelled core r) (h' : Spelled core r') : r = r' := by
  obtain ⟨hcomparison, hthreshold⟩ := h.ofText_eq
  obtain ⟨hcomparison', hthreshold'⟩ := h'.ofText_eq
  obtain ⟨comparison, threshold⟩ := r
  obtain ⟨comparison', threshold'⟩ := r'
  rw [hcomparison] at hcomparison'
  rw [hthreshold] at hthreshold'
  cases hcomparison'
  cases hthreshold'
  rfl

/-! ## Reading -/

theorem parse_of_ofText? (hcore : Text.IsCore core text.toList)
    (h : Version.ofText? (Comparison.ofText core).2 = some v) :
    parse text = .ok ⟨(Comparison.ofText core).1, v⟩ := by
  unfold parse
  rw [hcore.trim_eq]
  dsimp only
  rw [h]

theorem parse_of_not_ofText? (hcore : Text.IsCore core text.toList)
    (h : Version.ofText? (Comparison.ofText core).2 = none) :
    parse text = .error (.notVersion (String.ofList core)) := by
  unfold parse
  rw [hcore.trim_eq]
  dsimp only
  rw [h]

/-- A requirement is read exactly off the texts whose cores spell it. -/
theorem parse_eq_ok_iff (hcore : Text.IsCore core text.toList) :
    parse text = .ok r ↔ Spelled core r := by
  constructor
  · intro h
    cases hversion : Version.ofText? (Comparison.ofText core).2 with
    | none =>
      rw [parse_of_not_ofText? hcore hversion] at h
      cases h
    | some v =>
      rw [parse_of_ofText? hcore hversion] at h
      cases h
      obtain ⟨op, hop, hwritten⟩ := Comparison.written_ofText core
      have hend : ∀ c ∈ (Comparison.ofText core).2.getLast?, Text.isBlank c = false := by
        intro c hc
        apply hcore.finish c
        rw [hop, List.getLast?_append, Option.mem_def.1 hc]
        rfl
      obtain ⟨gap, dotted, hrest, hgap, hdotted⟩ := exists_of_ofText? hend hversion
      exact ⟨op, gap, dotted, hrest ▸ hop, hwritten, hgap, hdotted⟩
  · intro h
    obtain ⟨hcomparison, hthreshold⟩ := h.ofText_eq
    rw [parse_of_ofText? hcore hthreshold, hcomparison]

theorem parse_eq_error (hcore : Text.IsCore core text.toList) (h : ∀ r, ¬ Spelled core r) :
    parse text = .error (.notVersion (String.ofList core)) := by
  apply parse_of_not_ofText? hcore
  apply Option.eq_none_iff_forall_ne_some.2
  intro v hv
  exact h _ ((parse_eq_ok_iff hcore).1 (parse_of_ofText? hcore hv))

/-- What is read off a text has a segment. -/
theorem segments_ne_nil_of_parse (h : parse text = .ok r) : r.threshold.segments ≠ [] := by
  obtain ⟨_, _, _, _, _, _, hdotted⟩ := (parse_eq_ok_iff (Text.isCore_trim _)).1 h
  exact hdotted.segments_ne_nil

/-- So has what stands in a document. -/
theorem segments_ne_nil_of_stands {item : Bytes} (h : schema.Stands item r) :
    r.threshold.segments ≠ [] := by
  obtain ⟨text, hparse⟩ := Schema.Stands.spelled h
  dsimp only at hparse
  exact segments_ne_nil_of_parse hparse

/-! ## Writing -/

theorem spelled_text (hne : r.threshold.segments ≠ []) : Spelled r.text.toList r := by
  refine ⟨_, [' '], _, ?_, .symbol r.comparison, ?_, Version.spelled_text hne⟩
  · rw [text, String.toList_append, String.toList_append, List.append_assoc]
    rfl
  · exact List.forall_mem_singleton.2 rfl

/-- No blank stands at either end of what is written. -/
theorem isCore_text (hne : r.threshold.segments ≠ []) :
    Text.IsCore r.text.toList r.text.toList := by
  obtain ⟨mark, marks, hsymbol, hmark⟩ := r.comparison.exists_symbol_eq_cons
  have hdotted := Version.spelled_text hne
  rw [text, String.toList_append, String.toList_append, hsymbol]
  refine ⟨⟨[], [], ?_, List.forall_mem_nil _, List.forall_mem_nil _⟩, ?_, ?_⟩
  · rw [List.append_nil, List.nil_append]
  · rintro _ ⟨⟩
    exact hmark
  · intro c hc
    rw [List.getLast?_append_of_ne_nil _ hdotted.ne_nil] at hc
    exact hdotted.isBlank_eq_false c (List.mem_of_getLast? hc)

/-- What is written for a requirement with a segment is read back. -/
theorem parse_text (hne : r.threshold.segments ≠ []) : parse r.text = .ok r :=
  (parse_eq_ok_iff (isCore_text hne)).2 (spelled_text hne)

/-- A requirement with a segment fits its schema. -/
theorem fits (hne : r.threshold.segments ≠ []) : schema.Fits r := by
  rw [schema, Schema.Fits]
  dsimp only
  exact parse_text hne

end Requirement

/-! ## Policies -/

namespace CompatibilityRule

variable {rule : CompatibilityRule}

theorem hasField_requirement :
    schema.HasField "requirement" Requirement.schema .required 2 requirement :=
  ⟨_, _, _, _, _, rfl, .there (by simp) (.there (by simp) .here), fun _ => rfl⟩

theorem fits (hne : rule.requirement.threshold.segments ≠ []) : schema.Fits rule :=
  .closed rfl (.closed rfl ⟨Requirement.fits hne, trivial⟩)

theorem drawn {depth : Nat} (rule : CompatibilityRule) : schema.Drawn depth rule :=
  .closed rfl (.closed rfl ⟨trivial, trivial⟩)

/-- Wherever a rule stands, its requirement has been read off a text. -/
theorem segments_ne_nil_of_stands {item : Bytes} (h : schema.Stands item rule) :
    rule.requirement.threshold.segments ≠ [] := by
  obtain ⟨o, behind, -, hgiven⟩ := hasField_requirement.of_stands h
  cases hitem : o.field? "requirement" 2 with
  | none =>
    rw [hitem] at hgiven
    cases hgiven
  | some place =>
    rw [hitem] at hgiven
    exact Requirement.segments_ne_nil_of_stands hgiven

end CompatibilityRule

namespace Policy

variable {p : Policy}

theorem hasField_rules :
    schema.HasField "rules" (.list CompatibilityRule.schema) .required 0 rules :=
  ⟨_, _, _, _, _, rfl, .here, fun _ => rfl⟩

/-- The thresholds of a policy that is read off a text have segments. -/
theorem segments_ne_nil_of_obtained (h : schema.Obtained p) :
    ∀ rule ∈ p.rules, rule.requirement.threshold.segments ≠ [] := by
  intro rule hrule
  obtain ⟨text, hread⟩ := h
  obtain ⟨item, -, hgiven⟩ := hasField_rules.exists_item rfl hread
  cases item with
  | none => cases hgiven
  | some item =>
    obtain ⟨place, hplace⟩ := Schema.Stands.list hgiven rule hrule
    exact CompatibilityRule.segments_ne_nil_of_stands hplace

/-- A policy is written as a text that is read back, if its thresholds have segments. -/
theorem rereads (h : ∀ rule ∈ p.rules, rule.requirement.threshold.segments ≠ []) :
    schema.Rereads p := by
  have hfits : schema.Fits p := ⟨fun rule hrule => CompatibilityRule.fits (h rule hrule), trivial⟩
  have hdrawn : schema.Drawn 0 p := ⟨fun rule _ => CompatibilityRule.drawn rule, trivial⟩
  have hdepth : (schema.toJson p).depth ≤ Reader.maxDepth :=
    Nat.le_trans (schema.depth_toJson_le 0 p hdrawn) (by decide)
  exact .of_reading (Schema.readText_text rfl hfits hdepth) (Schema.readValue_text rfl hfits hdepth)

end Policy

/-- A requirement is read exactly off the texts that are an operator or nothing, any blanks and a
dotted version, blanks around them aside; any other text is quoted without these blanks. Such a text
is that of one requirement only. What is written for a requirement with a segment is read back as it
was, and so is what is written for a policy that was read off a text or is the preset one. -/
theorem Requirement.read_and_reread :
    (∀ text : String, ∃ core, Text.IsCore core text.toList ∧
      (∀ r, parse text = .ok r ↔ Spelled core r) ∧
      ((∀ r, ¬ Spelled core r) → parse text = .error (.notVersion (String.ofList core)))) ∧
    (∀ core r r', Spelled core r → Spelled core r' → r = r') ∧
    (∀ r : Requirement, r.threshold.segments ≠ [] → parse r.text = .ok r) ∧
    ∀ p, Policy.schema.Obtained p ∨ p = .preset → Policy.schema.Rereads p := by
  refine ⟨?_, fun core r r' => Spelled.unique, fun r => parse_text, ?_⟩
  · intro text
    have hcore := Text.isCore_trim text.toList
    exact ⟨_, hcore, fun r => parse_eq_ok_iff hcore, parse_eq_error hcore⟩
  · rintro p (hobtained | rfl)
    · exact Policy.rereads (Policy.segments_ne_nil_of_obtained hobtained)
    · apply Policy.rereads
      decide

/-- Blanks, a plus sign and zeros in front are read; an operator that is cut in two and a number
above 64 bits are not. A policy that is written in this way is read back. -/
theorem Requirement.read_and_reread_of_signs :
    parse "\u2003>= \t+0118.01.18446744073709551615 " =
        .ok ⟨.greaterOrEqual, ⟨[118, 1, 18446744073709551615]⟩⟩ ∧
      parse " > =118 " = .error (.notVersion "> =118") ∧
      parse "<18446744073709551616" = .error (.notVersion "<18446744073709551616") ∧
      parse (Requirement.text ⟨.less, ⟨[118, 0]⟩⟩) = .ok ⟨.less, ⟨[118, 0]⟩⟩ ∧
      ∃ p, p.rules = [⟨.linux, .firefox, .equal, ⟨[7]⟩⟩] ∧ Policy.schema.Obtained p ∧
        Policy.schema.Rereads p := by
  obtain ⟨-, -, hwritten, hpolicies⟩ := read_and_reread
  have htree : (Json.object [("rules", .array [.array [.string "linux", .string "firefox",
      .string " +007"]])]).IsTreeOf
        (utf8 "\x7b\"rules\":[[\"linux\",\"firefox\",\" +007\"]]\x7d") := by
    decide +kernel
  have hobtained : Policy.schema.Obtained ⟨[⟨.linux, .firefox, .equal, ⟨[7]⟩⟩]⟩ :=
    ⟨_, .inr ((Schema.readValue_value?_of_tree htree).trans (by decide +kernel))⟩
  exact ⟨by decide +kernel, by decide +kernel, by decide +kernel, hwritten _ (by decide), _, rfl,
    hobtained, hpolicies _ (.inl hobtained)⟩

end CredentialCeremony
