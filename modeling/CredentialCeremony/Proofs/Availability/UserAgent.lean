import CredentialCeremony.Availability.UserAgent
import CredentialCeremony.Proofs.Availability.Version

set_option autoImplicit false

/-!
# Products in a user-agent text

The first part of a text that announces a product settles the version of the product
(`productVersion?_eq_some_iff`). A browser is told by the first product of a table that is announced
at all, so that a product hides all those behind it in the table, whether its version can be read or
not.

Main statement: a version of Chrome is read exactly if Chrome is announced with this version and no
product of another browser is announced (`parse_eq_chrome_iff`).
-/

namespace CredentialCeremony.UserAgent

/-- The part starts with the token of the product and a slash. -/
def Announces (product : String) (part : List Char) : Prop := product.toList ++ ['/'] <+: part

/-- The first part that announces the product has this text behind the slash. -/
def FirstAnnounced (product : String) (parts : List (List Char)) (behind : List Char) : Prop :=
  ∃ before after, parts = before ++ (product.toList ++ '/' :: behind) :: after ∧
    ∀ part ∈ before, ¬ Announces product part

variable {product : String} {part behind run text : List Char} {parts : List (List Char)}

/-! ## One product -/

theorem announced?_eq_some_iff :
    announced? product part = some behind ↔ part = product.toList ++ '/' :: behind := by
  have hmark : product.toList ++ '/' :: behind = product.toList ++ ['/'] ++ behind :=
    List.append_cons _ _ _
  rw [hmark]
  unfold announced?
  dsimp only
  constructor
  · intro h
    split at h
    · rename_i hfront
      cases h
      exact (List.prefix_iff_eq_append.1 (List.isPrefixOf_iff_prefix.1 hfront)).symm
    · cases h
  · rintro rfl
    rw [if_pos (List.isPrefixOf_iff_prefix.2 (List.prefix_append _ _)), List.drop_left]

theorem announced?_eq_none_iff : announced? product part = none ↔ ¬ Announces product part := by
  rw [Announces, ← List.isPrefixOf_iff_prefix]
  unfold announced?
  dsimp only
  split
  · rename_i hfront
    refine iff_of_false ?_ (not_not_intro hfront)
    intro h
    cases h
  · rename_i hfront
    exact iff_of_true rfl hfront

theorem findSome?_announced?_eq_some_iff :
    parts.findSome? (announced? product) = some behind ↔ FirstAnnounced product parts behind := by
  rw [List.findSome?_eq_some_iff]
  constructor
  · rintro ⟨before, part, after, rfl, hpart, hbefore⟩
    rw [announced?_eq_some_iff.1 hpart]
    exact ⟨before, after, rfl, fun other hother => announced?_eq_none_iff.1 (hbefore other hother)⟩
  · rintro ⟨before, after, rfl, hbefore⟩
    exact ⟨before, _, after, rfl, announced?_eq_some_iff.2 rfl,
      fun other hother => announced?_eq_none_iff.2 (hbefore other hother)⟩

/-- The version text of a product is the longest run of digits and dots behind the first part that
announces it. -/
theorem productVersion?_eq_some_iff :
    productVersion? parts product = some run ↔
      ∃ behind, FirstAnnounced product parts behind ∧
        Text.IsLongestRun Version.isDigitOrDot run behind := by
  rw [productVersion?, Option.map_eq_some_iff]
  constructor
  · rintro ⟨behind, hbehind, hrun⟩
    exact ⟨behind, findSome?_announced?_eq_some_iff.1 hbehind, Text.isLongestRun_iff.2 hrun.symm⟩
  · rintro ⟨behind, hbehind, hrun⟩
    exact ⟨behind, findSome?_announced?_eq_some_iff.2 hbehind, (Text.isLongestRun_iff.1 hrun).symm⟩

/-- A product has no version text exactly if no part announces it. -/
theorem productVersion?_eq_none_iff :
    productVersion? parts product = none ↔ ∀ part ∈ parts, ¬ Announces product part := by
  rw [productVersion?, Option.map_eq_none_iff, List.findSome?_eq_none_iff]
  exact forall₂_congr fun part _ => announced?_eq_none_iff

/-! ## A table of products -/

/-- The browser of the first product in a table that some part announces, with its version text. -/
def tabled? (parts : List (List Char)) (table : List (String × Browser)) :
    Option (Browser × List Char) :=
  table.findSome? fun entry => (productVersion? parts entry.1).map fun version => (entry.2, version)

variable {table rest : List (String × Browser)} {browser : Browser}

theorem tabled?_append :
    tabled? parts (table ++ rest) = (tabled? parts table).or (tabled? parts rest) :=
  List.findSome?_append

theorem tabled?_eq_none_iff :
    tabled? parts table = none ↔ ∀ entry ∈ table, ∀ part ∈ parts, ¬ Announces entry.1 part := by
  rw [tabled?, List.findSome?_eq_none_iff]
  refine forall₂_congr fun entry _ => ?_
  rw [Option.map_eq_none_iff, productVersion?_eq_none_iff]

/-- A browser that is found has an entry in the table. -/
theorem exists_entry_of_tabled? (h : tabled? parts table = some (browser, run)) :
    ∃ product, (product, browser) ∈ table := by
  obtain ⟨⟨product, owner⟩, hentry, hversion⟩ := List.exists_of_findSome?_eq_some h
  obtain ⟨_, -, hsame⟩ := Option.map_eq_some_iff.1 hversion
  cases hsame
  exact ⟨product, hentry⟩

/-- A table in which all entries are of one browser. -/
theorem tabled?_pair_eq_some_iff {first second : String} :
    tabled? parts [(first, browser), (second, browser)] = some (browser, run) ↔
      productVersion? parts first = some run ∨
        (∀ part ∈ parts, ¬ Announces first part) ∧ productVersion? parts second = some run := by
  rw [← productVersion?_eq_none_iff]
  unfold tabled?
  cases hfirst : productVersion? parts first with
  | some run => simp [hfirst]
  | none => simp [hfirst, Option.map_eq_some_iff]

theorem browserOf_of_tabled {found : Browser × List Char}
    (h : tabled? parts browserTokens = some found) :
    browserOf parts = (found.1, some found.2) := by
  unfold tabled? at h
  unfold browserOf
  rw [h]

/-- Where nothing of the table is announced, the browser is Safari or not known. -/
theorem browserOf_of_untabled (h : tabled? parts browserTokens = none) :
    browserOf parts =
      if (productVersion? parts "Safari").isSome then (.safari, productVersion? parts "Version")
      else (.other, none) := by
  unfold tabled? at h
  unfold browserOf
  rw [h]

/-! ## Chrome -/

/-- The products that hide Chrome. -/
def otherProducts : List String :=
  ["Edg", "EdgA", "EdgiOS", "Edge", "OPR", "OPiOS", "Opera", "Firefox", "FxiOS"]

/-- The first part of Chrome on iOS has this text behind the slash or, if there is none, the first
part of Chrome. -/
def ChromeAnnounced (parts : List (List Char)) (behind : List Char) : Prop :=
  FirstAnnounced "CriOS" parts behind ∨
    (∀ part ∈ parts, ¬ Announces "CriOS" part) ∧ FirstAnnounced "Chrome" parts behind

/-- Chrome comes last in the table, under two tokens. -/
theorem browserTokens_eq :
    browserTokens = browserTokens.take 9 ++ [("CriOS", .chrome), ("Chrome", .chrome)] := rfl

theorem map_fst_take_browserTokens : (browserTokens.take 9).map Prod.fst = otherProducts := rfl

theorem browserOf_eq_some_iff (hbrowser : browser ≠ .safari) :
    browserOf parts = (browser, some run) ↔
      tabled? parts browserTokens = some (browser, run) := by
  cases hfound : tabled? parts browserTokens with
  | some found =>
    rw [browserOf_of_tabled hfound]
    simp [Prod.ext_iff]
  | none =>
    rw [browserOf_of_untabled hfound]
    constructor
    · intro h
      split at h
      · exact absurd (congrArg Prod.fst h).symm hbrowser
      · cases h
    · intro h
      cases h

/-- The browser is Chrome, with this version text, exactly if no product of another browser is
announced, but Chrome is, with this longest run of digits and dots behind it. -/
theorem browserOf_eq_chrome_iff :
    browserOf parts = (.chrome, some run) ↔
      (∀ product ∈ otherProducts, ∀ part ∈ parts, ¬ Announces product part) ∧
        ∃ behind, ChromeAnnounced parts behind ∧
          Text.IsLongestRun Version.isDigitOrDot run behind := by
  have hothers : tabled? parts (browserTokens.take 9) ≠ some (.chrome, run) := by
    intro h
    obtain ⟨product, hentry⟩ := exists_entry_of_tabled? h
    have hno : ∀ entry ∈ browserTokens.take 9, entry.2 ≠ .chrome := by decide
    exact hno _ hentry rfl
  have hnone : tabled? parts (browserTokens.take 9) = none ↔
      ∀ product ∈ otherProducts, ∀ part ∈ parts, ¬ Announces product part := by
    rw [tabled?_eq_none_iff, ← map_fst_take_browserTokens, List.forall_mem_map]
  rw [browserOf_eq_some_iff (by decide), browserTokens_eq, tabled?_append, Option.or_eq_some_iff,
    or_iff_right hothers, hnone, tabled?_pair_eq_some_iff, productVersion?_eq_some_iff,
    productVersion?_eq_some_iff]
  refine and_congr_right fun _ => ?_
  constructor
  · rintro (⟨behind, hbehind, hrun⟩ | ⟨hios, behind, hbehind, hrun⟩)
    · exact ⟨behind, .inl hbehind, hrun⟩
    · exact ⟨behind, .inr ⟨hios, hbehind⟩, hrun⟩
  · rintro ⟨behind, hbehind | ⟨hios, hbehind⟩, hrun⟩
    · exact .inl ⟨behind, hbehind, hrun⟩
    · exact .inr ⟨hios, behind, hbehind, hrun⟩

/-- A version of Chrome is read exactly if no product of another browser is announced, but Chrome is,
and the longest run of digits and dots behind it is that version. -/
theorem parse_eq_chrome_iff {text : String} {v : Version} :
    (parse text).browser = .chrome ∧ (parse text).version = some v ↔
      (∀ product ∈ otherProducts, ∀ part ∈ Text.parts text.toList, ¬ Announces product part) ∧
        ∃ behind run, ChromeAnnounced (Text.parts text.toList) behind ∧
          Text.IsLongestRun Version.isDigitOrDot run behind ∧ Version.Dotted run v := by
  have hparse : (parse text).browser = .chrome ∧ (parse text).version = some v ↔
      ∃ run, browserOf (Text.parts text.toList) = (.chrome, some run) ∧
        Version.ofText? run = some v := by
    unfold parse
    rw [Option.bind_eq_some_iff]
    constructor
    · rintro ⟨hbrowser, run, hrun, hversion⟩
      exact ⟨run, Prod.ext hbrowser hrun, hversion⟩
    · rintro ⟨run, hfound, hversion⟩
      rw [hfound]
      exact ⟨rfl, run, rfl, hversion⟩
  rw [hparse]
  constructor
  · rintro ⟨run, hfound, hversion⟩
    obtain ⟨hothers, behind, hbehind, hrun⟩ := browserOf_eq_chrome_iff.1 hfound
    exact ⟨hothers, behind, run, hbehind, hrun, (Version.ofText?_eq_some_iff hrun.all).1 hversion⟩
  · rintro ⟨hothers, behind, run, hbehind, hrun, hversion⟩
    exact ⟨run, browserOf_eq_chrome_iff.2 ⟨hothers, behind, hbehind, hrun⟩,
      (Version.ofText?_eq_some_iff hrun.all).2 hversion⟩

/-! ## Windows -/

/-- Windows is looked for before all other platforms. -/
theorem platformOf_eq_windows_iff :
    platformOf text = .windows ↔ "Windows".toList <:+: text := by
  rw [← occursIn_iff]
  unfold platformOf
  by_cases hwindows : occursIn "Windows".toList text = true
  · have hfound : (platformWords.find? fun entry => occursIn entry.1.toList text) =
        some ("Windows", .windows) := List.find?_cons_of_pos hwindows
    rw [hfound]
    exact iff_of_true rfl hwindows
  · have hlater : (platformWords.find? fun entry => occursIn entry.1.toList text) =
        platformWords.tail.find? fun entry => occursIn entry.1.toList text :=
      List.find?_cons_of_neg hwindows
    have hno : ∀ entry ∈ platformWords.tail, entry.2 ≠ .windows := by decide
    rw [hlater]
    refine iff_of_false ?_ hwindows
    split
    · rename_i entry hfound
      exact hno entry (List.mem_of_find?_eq_some hfound)
    · intro h
      cases h

end CredentialCeremony.UserAgent
