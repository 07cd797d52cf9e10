import CredentialCeremony.Proofs.Availability.UserAgent
import CredentialCeremony.Proofs.Text.Parts
import Mathlib.Logic.Relation

set_option autoImplicit false

/-!
# What a browser is detected by

A browser is detected by the products that the parts of a text announce, and by nothing else. Of the
table, the first entry counts that some part announces; of the parts, the first one that announces
it, even if the version behind the slash cannot be read. So the blanks between the parts, the parts
that announce none of these products, and the order of parts of different products are all without
effect.

Main statement: `detection`.
-/

namespace CredentialCeremony.UserAgent

variable {product : String} {part run : List Char} {parts others : List (List Char)}
  {table : List (String × Browser)} {browser : Browser} {version : Option Version}

/-! ## The browser and its version -/

/-- The version of a product is read behind the slash of the first part that announces it. If what
stands there is no dotted version, there is none, whatever the other parts say. -/
inductive StatedVersion (product : String) (parts : List (List Char)) : Option Version → Prop where
  | read {behind run : List Char} {v : Version} (hfirst : FirstAnnounced product parts behind)
      (hrun : Text.IsLongestRun Version.isDigitOrDot run behind) (hdotted : Version.Dotted run v) :
      StatedVersion product parts (some v)
  | unreadable {behind run : List Char} (hfirst : FirstAnnounced product parts behind)
      (hrun : Text.IsLongestRun Version.isDigitOrDot run behind)
      (hnot : ∀ v, ¬ Version.Dotted run v) : StatedVersion product parts none
  | unannounced (hnone : ∀ part ∈ parts, ¬ Announces product part) :
      StatedVersion product parts none

theorem statedVersion_of_productVersion? (h : productVersion? parts product = some run) :
    StatedVersion product parts version ↔ Version.ofText? run = version := by
  obtain ⟨behind, hfirst, hrun⟩ := productVersion?_eq_some_iff.1 h
  -- the part and the run are settled, so that the version alone is left to compare
  have hsettled : ∀ {behind' run'}, FirstAnnounced product parts behind' →
      Text.IsLongestRun Version.isDigitOrDot run' behind' → run' = run := by
    intro behind' run' hfirst' hrun'
    have hagain := productVersion?_eq_some_iff.2 ⟨behind', hfirst', hrun'⟩
    exact Option.some.inj (hagain.symm.trans h)
  constructor
  · rintro (⟨hfirst', hrun', hdotted⟩ | ⟨hfirst', hrun', hnot⟩ | hnone)
    · rw [hsettled hfirst' hrun'] at hdotted
      exact (Version.ofText?_eq_some_iff hrun.all).2 hdotted
    · rw [hsettled hfirst' hrun'] at hnot
      apply Option.eq_none_iff_forall_ne_some.2
      exact fun v hv => hnot v ((Version.ofText?_eq_some_iff hrun.all).1 hv)
    · rw [productVersion?_eq_none_iff.2 hnone] at h
      cases h
  · rintro rfl
    cases hversion : Version.ofText? run with
    | some v => exact .read hfirst hrun ((Version.ofText?_eq_some_iff hrun.all).1 hversion)
    | none =>
      apply StatedVersion.unreadable hfirst hrun
      intro v hdotted
      rw [(Version.ofText?_eq_some_iff hrun.all).2 hdotted] at hversion
      cases hversion

theorem statedVersion_iff :
    StatedVersion product parts version ↔
      (productVersion? parts product).bind Version.ofText? = version := by
  cases h : productVersion? parts product with
  | some run => exact statedVersion_of_productVersion? h
  | none =>
    have hnone := productVersion?_eq_none_iff.1 h
    constructor
    · rintro (⟨hfirst, hrun, -⟩ | ⟨hfirst, hrun, -⟩ | -)
      · rw [productVersion?_eq_some_iff.2 ⟨_, hfirst, hrun⟩] at h
        cases h
      · rfl
      · rfl
    · rintro rfl
      exact .unannounced hnone

/-- The browser of the parts of a text, with its version. Safari is told by one product and its
version by another. -/
inductive Detected (parts : List (List Char)) : Browser → Option Version → Prop where
  | tabled {before after : List (String × Browser)} {product : String} {browser : Browser}
      {version : Option Version} (htable : browserTokens = before ++ (product, browser) :: after)
      (hbefore : ∀ entry ∈ before, ∀ part ∈ parts, ¬ Announces entry.1 part)
      (hsome : ∃ part ∈ parts, Announces product part)
      (hversion : StatedVersion product parts version) : Detected parts browser version
  | safari {version : Option Version}
      (hnone : ∀ entry ∈ browserTokens, ∀ part ∈ parts, ¬ Announces entry.1 part)
      (hsome : ∃ part ∈ parts, Announces "Safari" part)
      (hversion : StatedVersion "Version" parts version) : Detected parts .safari version
  | unknown (hnone : ∀ entry ∈ browserTokens, ∀ part ∈ parts, ¬ Announces entry.1 part)
      (hsafari : ∀ part ∈ parts, ¬ Announces "Safari" part) : Detected parts .other none

theorem isSome_productVersion?_iff :
    (productVersion? parts product).isSome = true ↔ ∃ part ∈ parts, Announces product part := by
  rw [Option.isSome_iff_ne_none, ne_eq, productVersion?_eq_none_iff]
  push Not
  rfl

/-- The entry that is found is the first one of the table that is announced. -/
theorem tabled?_eq_some_iff :
    tabled? parts table = some (browser, run) ↔
      ∃ before product after, table = before ++ (product, browser) :: after ∧
        (∀ entry ∈ before, ∀ part ∈ parts, ¬ Announces entry.1 part) ∧
        productVersion? parts product = some run := by
  rw [tabled?, List.findSome?_eq_some_iff]
  constructor
  · rintro ⟨before, ⟨product, owner⟩, after, rfl, hentry, hbefore⟩
    obtain ⟨_, hrun, hsame⟩ := Option.map_eq_some_iff.1 hentry
    cases hsame
    refine ⟨before, product, after, rfl, ?_, hrun⟩
    intro entry hmem
    exact productVersion?_eq_none_iff.1 (Option.map_eq_none_iff.1 (hbefore entry hmem))
  · rintro ⟨before, product, after, rfl, hbefore, hrun⟩
    refine ⟨before, (product, browser), after, rfl, by rw [hrun]; rfl, ?_⟩
    intro entry hmem
    rw [productVersion?_eq_none_iff.2 (hbefore entry hmem)]
    rfl

/-- What is detected is what the search through the table and the parts finds. -/
theorem detected_iff :
    Detected parts browser version ↔
      (browserOf parts).1 = browser ∧ (browserOf parts).2.bind Version.ofText? = version := by
  constructor
  · rintro (⟨htable, hbefore, hsome, hversion⟩ | ⟨hnone, hsome, hversion⟩ | ⟨hnone, hsafari⟩)
    · obtain ⟨run, hrun⟩ := Option.isSome_iff_exists.1 (isSome_productVersion?_iff.2 hsome)
      have hfound := tabled?_eq_some_iff.2 ⟨_, _, _, htable, hbefore, hrun⟩
      rw [browserOf_of_tabled hfound]
      exact ⟨rfl, (statedVersion_of_productVersion? hrun).1 hversion⟩
    · rw [browserOf_of_untabled (tabled?_eq_none_iff.2 hnone),
        if_pos (isSome_productVersion?_iff.2 hsome)]
      exact ⟨rfl, statedVersion_iff.1 hversion⟩
    · rw [browserOf_of_untabled (tabled?_eq_none_iff.2 hnone),
        productVersion?_eq_none_iff.2 hsafari]
      exact ⟨rfl, rfl⟩
  · rintro ⟨rfl, rfl⟩
    cases hfound : tabled? parts browserTokens with
    | some found =>
      obtain ⟨before, product, after, htable, hbefore, hrun⟩ := tabled?_eq_some_iff.1 hfound
      rw [browserOf_of_tabled hfound]
      apply Detected.tabled htable hbefore
      · exact isSome_productVersion?_iff.1 (Option.isSome_of_eq_some hrun)
      · exact (statedVersion_of_productVersion? hrun).2 rfl
    | none =>
      have hnone := tabled?_eq_none_iff.1 hfound
      rw [browserOf_of_untabled hfound]
      split
      · rename_i hsafari
        exact .safari hnone (isSome_productVersion?_iff.1 hsafari) (statedVersion_iff.2 rfl)
      · rename_i hsafari
        apply Detected.unknown hnone
        exact productVersion?_eq_none_iff.1 (Option.not_isSome_iff_eq_none.1 hsafari)

/-! ## What does not count -/

instance : DecidablePred (Announces product) := fun part =>
  inferInstanceAs (Decidable (product.toList ++ ['/'] <+: part))

/-- The products that are looked for. -/
def watched : List String := browserTokens.map Prod.fst ++ ["Safari", "Version"]

/-- The parts that announce a product. -/
def announcing (product : String) (parts : List (List Char)) : List (List Char) :=
  parts.filter fun part => Announces product part

/-- The same parts announce each of the products that are looked for, in the same order. -/
def SameAnnouncements (parts others : List (List Char)) : Prop :=
  ∀ product ∈ watched, announcing product parts = announcing product others

theorem announcing_append (product : String) (parts others : List (List Char)) :
    announcing product (parts ++ others) = announcing product parts ++ announcing product others :=
  List.filter_append parts others

theorem announcing_cons_of_pos (h : Announces product part) (parts : List (List Char)) :
    announcing product (part :: parts) = part :: announcing product parts :=
  List.filter_cons_of_pos (decide_eq_true h)

theorem announcing_cons_of_neg (h : ¬ Announces product part) (parts : List (List Char)) :
    announcing product (part :: parts) = announcing product parts :=
  List.filter_cons_of_neg (by simpa using h)

theorem findSome?_announcing :
    (announcing product parts).findSome? (announced? product) =
      parts.findSome? (announced? product) := by
  induction parts with
  | nil => rfl
  | cons part parts ih =>
    by_cases hpart : Announces product part
    · rw [announcing_cons_of_pos hpart, List.findSome?_cons, List.findSome?_cons, ih]
    · rw [announcing_cons_of_neg hpart, List.findSome?_cons, announced?_eq_none_iff.2 hpart, ih]

/-- The version text of a product depends on the parts that announce the product. -/
theorem productVersion?_congr (h : SameAnnouncements parts others) (hproduct : product ∈ watched) :
    productVersion? parts product = productVersion? others product := by
  rw [productVersion?, ← findSome?_announcing, h product hproduct, findSome?_announcing,
    productVersion?]

theorem tabled?_congr
    (h : ∀ entry ∈ table, productVersion? parts entry.1 = productVersion? others entry.1) :
    tabled? parts table = tabled? others table := by
  induction table with
  | nil => rfl
  | cons entry table ih =>
    obtain ⟨hentry, htable⟩ := List.forall_mem_cons.1 h
    unfold tabled? at ih ⊢
    rw [List.findSome?_cons, List.findSome?_cons, hentry, ih htable]

/-- Parts with the same announcements tell the same browser. -/
theorem browserOf_congr (h : SameAnnouncements parts others) :
    browserOf parts = browserOf others := by
  have htable : tabled? parts browserTokens = tabled? others browserTokens := by
    apply tabled?_congr
    intro entry hentry
    exact productVersion?_congr h (List.mem_append_left _ (List.mem_map_of_mem hentry))
  cases hfound : tabled? others browserTokens with
  | some found =>
    rw [browserOf_of_tabled (htable.trans hfound), browserOf_of_tabled hfound]
  | none =>
    have hsafari : productVersion? parts "Safari" = productVersion? others "Safari" :=
      productVersion?_congr h (by decide)
    have hversion : productVersion? parts "Version" = productVersion? others "Version" :=
      productVersion?_congr h (by decide)
    rw [browserOf_of_untabled (htable.trans hfound), browserOf_of_untabled hfound, hsafari,
      hversion]

/-- One way to change a text: other blanks between its parts, one part more that announces none of
the products, or another order of the parts, in which those that announce the same product keep
theirs. -/
inductive Rearranged (text text' : String) : Prop where
  | respaced {parts : List (List Char)} (h : Text.Spaced text.toList parts)
      (h' : Text.Spaced text'.toList parts) : Rearranged text text'
  | inserted {before after : List (List Char)} {part : List Char}
      (hneutral : ∀ product ∈ watched, ¬ Announces product part)
      (h : Text.Spaced text.toList (before ++ after))
      (h' : Text.Spaced text'.toList (before ++ part :: after)) : Rearranged text text'
  | reordered {parts others : List (List Char)} (hperm : parts.Perm others)
      (horder : SameAnnouncements parts others) (h : Text.Spaced text.toList parts)
      (h' : Text.Spaced text'.toList others) : Rearranged text text'

variable {text text' : String}

/-- A single change leaves the announcements as they are. -/
theorem Rearranged.sameAnnouncements (h : Rearranged text text') :
    SameAnnouncements (Text.parts text.toList) (Text.parts text'.toList) := by
  intro product hproduct
  cases h with
  | respaced h h' => rw [Text.spaced_iff.1 h, Text.spaced_iff.1 h']
  | inserted hneutral h h' =>
    have hnot := hneutral product hproduct
    rw [Text.spaced_iff.1 h, Text.spaced_iff.1 h', announcing_append, announcing_append,
      announcing_cons_of_neg hnot]
  | reordered _ horder h h' =>
    rw [Text.spaced_iff.1 h, Text.spaced_iff.1 h']
    exact horder product hproduct

/-- So do any number of changes, whether made or taken back. -/
theorem sameAnnouncements_of_rearranged (h : Relation.EqvGen Rearranged text text') :
    SameAnnouncements (Text.parts text.toList) (Text.parts text'.toList) := by
  induction h with
  | rel _ _ hstep => exact hstep.sameAnnouncements
  | refl _ => exact fun _ _ => rfl
  | symm _ _ _ ih => exact fun product hproduct => (ih product hproduct).symm
  | trans _ _ _ _ _ ih ih' =>
    exact fun product hproduct => (ih product hproduct).trans (ih' product hproduct)

theorem parse_eq_iff :
    (parse text).browser = browser ∧ (parse text).version = version ↔
      Detected (Text.parts text.toList) browser version := by
  rw [detected_iff]
  rfl

/-- Texts with the same announcements are read as the same browser and version. -/
theorem parse_congr (h : SameAnnouncements (Text.parts text.toList) (Text.parts text'.toList)) :
    (parse text').browser = (parse text).browser ∧
      (parse text').version = (parse text).version := by
  have hbrowser := browserOf_congr h
  unfold parse
  rw [hbrowser]
  exact ⟨rfl, rfl⟩

/-- The browser and its version are told by the first entry of the table that some part announces,
with what the first such part states as the version; by the products of Safari, where no entry is
announced; and by nothing else. They stay the same under other blanks between the parts, further
parts that announce none of these products, and another order of the parts in which those of the
same product keep theirs. -/
theorem detection :
    (∀ text browser version,
      (parse text).browser = browser ∧ (parse text).version = version ↔
        ∃ parts, Text.Spaced text.toList parts ∧ Detected parts browser version) ∧
    ∀ text text', Relation.EqvGen Rearranged text text' →
      (parse text').browser = (parse text).browser ∧
        (parse text').version = (parse text).version := by
  constructor
  · intro text browser version
    rw [parse_eq_iff]
    constructor
    · intro h
      exact ⟨_, Text.spaced_iff.2 rfl, h⟩
    · rintro ⟨parts, hparts, h⟩
      rwa [Text.spaced_iff.1 hparts]
  · intro text text' h
    exact parse_congr (sameAnnouncements_of_rearranged h)

/-- The version of Edge cannot be read, and the parts around it are of no help; they can be put in
another order, with something between them. Without Edge and Chrome, the browser is Safari. -/
theorem detection_of_hidden :
    Relation.EqvGen Rearranged "Chrome/118.0 Edg/1..2 Edg/7"
        "\tEdg/1..2  KHTML/8 Edg/7 Chrome/118.0" ∧
      (parse "\tEdg/1..2  KHTML/8 Edg/7 Chrome/118.0").browser = .edge ∧
      (parse "\tEdg/1..2  KHTML/8 Edg/7 Chrome/118.0").version = none ∧
      ∃ parts, Text.Spaced "Version/16.5.1b Safari/605.1".toList parts ∧
        Detected parts .safari (some ⟨[16, 5, 1]⟩) := by
  let edge := "Edg/1..2".toList
  let later := ["Edg/7".toList, "Chrome/118.0".toList]
  have hfirst : Text.Spaced "Chrome/118.0 Edg/1..2 Edg/7".toList
      ["Chrome/118.0".toList, edge, "Edg/7".toList] := Text.spaced_iff.2 (by decide)
  have hsecond : Text.Spaced "Edg/1..2 Edg/7 Chrome/118.0".toList ([edge] ++ later) :=
    Text.spaced_iff.2 (by decide)
  have hthird : Text.Spaced "\tEdg/1..2  KHTML/8 Edg/7 Chrome/118.0".toList
      ([edge] ++ "KHTML/8".toList :: later) := Text.spaced_iff.2 (by decide)
  have hordered : Rearranged "Chrome/118.0 Edg/1..2 Edg/7" "Edg/1..2 Edg/7 Chrome/118.0" := by
    apply Rearranged.reordered _ _ hfirst hsecond
    · decide
    · unfold SameAnnouncements
      decide
  have hinserted : Rearranged "Edg/1..2 Edg/7 Chrome/118.0"
      "\tEdg/1..2  KHTML/8 Edg/7 Chrome/118.0" := .inserted (by decide) hsecond hthird
  have hsame := Relation.EqvGen.trans _ _ _ (.rel _ _ hordered) (.rel _ _ hinserted)
  obtain ⟨hbrowser, hversion⟩ := detection.2 _ _ hsame
  have hsafari := (detection.1 "Version/16.5.1b Safari/605.1" .safari (some ⟨[16, 5, 1]⟩)).1
    ⟨by decide, by decide⟩
  exact ⟨hsame, hbrowser.trans (by decide), hversion.trans (by decide), hsafari⟩

end CredentialCeremony.UserAgent
