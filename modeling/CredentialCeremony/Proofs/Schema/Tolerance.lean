import CredentialCeremony.Options.Resolved
import CredentialCeremony.Options.Server
import CredentialCeremony.Proofs.Schema.Strict

set_option autoImplicit false

/-!
# What tolerance costs

A failure that is passed over where it happened leaves the direct reader inside the value of the
field. Whether that is noticed can be told without following the reader: on a document that a tree
holds, direct reading and reading out of the tree agree exactly if the document is tame wherever
the tree gives a result (`Schema.readText_eq_readValue_iff`), and a text is taken for what it is not
exactly if the reader that goes on behind values only refuses it (`Schema.document_iff_of_readText`).
-/

namespace CredentialCeremony

open Grammar

variable {α : Type}

/-- The text is a document that a tree can hold, and this is the tree. -/
def Json.IsTreeOf (json : Json) (text : Bytes) : Prop :=
  json.Fills text ∧ json.depth ≤ Reader.maxDepth

/-- Reads a whole text directly, where a failure is passed over behind the value of its field only. -/
def Schema.readStrictly (s : Schema α) (text : Bytes) : Reading α :=
  Reader.run (s.read .behindValue Reader.maxDepth) text

/-- The text is a document, but no tree can hold it: it is nested too deep, a number in it is out of
range, or an escape in it stands for no character. -/
def Illegible (text : Bytes) : Prop := Document text ∧ ∀ json : Json, ¬ json.IsTreeOf text

theorem Json.IsTreeOf.unique {j₁ j₂ : Json} {text : Bytes} (h₁ : j₁.IsTreeOf text)
    (h₂ : j₂.IsTreeOf text) : j₁ = j₂ := by
  obtain ⟨⟨r₁, hspelled₁, -⟩, -⟩ := h₁
  obtain ⟨⟨r₂, hspelled₂, -⟩, -⟩ := h₂
  exact (hspelled₁.unique hspelled₂).1

/-- Whether a value is the tree of a text is found out by reading the text. -/
theorem Json.isTreeOf_iff {json : Json} {text : Bytes} :
    json.IsTreeOf text ↔ (Reader.run (Reader.value Reader.maxDepth) text).value? = some json :=
  (Reading.value?_eq_some_iff.trans Reader.run_value_eq_ok_iff).symm

instance (json : Json) (text : Bytes) : Decidable (json.IsTreeOf text) :=
  decidable_of_iff _ Json.isTreeOf_iff.symm

theorem Reader.run_value_eq {json : Json} {text : Bytes} (h : json.IsTreeOf text) :
    Reader.run (Reader.value Reader.maxDepth) text = ⟨.ok json, []⟩ := by
  obtain ⟨⟨rest, hspelled, hrest⟩, hdepth⟩ := h
  have hread : value maxDepth ⟨text, []⟩ = .ok json ⟨rest, []⟩ :=
    (value_exact _ _ _ _).2 ⟨json, hspelled, hdepth, rfl⟩
  exact run_eq_of_ok hread hrest

/-- Reading out of a tree gives what can be taken out of the tree with its names resolved. -/
theorem Schema.readValue_value?_eq_some_iff {s : Schema α} {text : Bytes} {a : α} :
    (s.readValue text).value? = some a ↔
      ∃ (json : Json) (w : List TimeoutWarning), json.IsTreeOf text ∧ s.extract json.resolve [] = .ok a w := by
  rw [Reading.value?_eq_some_iff]
  constructor
  · intro h
    cases htree : (Reader.run (Reader.value Reader.maxDepth) text).outcome with
    | error e => simp [Schema.readValue, htree] at h
    | ok json =>
      have hjson : json.IsTreeOf text := Reader.run_value_eq_ok_iff.1 htree
      simp only [Schema.readValue, Reader.run_value_eq hjson] at h
      split at h
      · rename_i b w hx
        cases h
        exact ⟨json, w, hjson, hx⟩
      · cases h
  · rintro ⟨json, w, hjson, hx⟩
    simp [Schema.readValue, Reader.run_value_eq hjson, hx]

/-- What is read directly off a document that a tree holds is read off a tame one, as the tree gives
it. -/
theorem Schema.tame_of_readText {s : Schema α} {json : Json} {text : Bytes} {a : α}
    (htree : json.IsTreeOf text) (h : (s.readText text).value? = some a) :
    s.tame json = true ∧ ∃ w, s.extract json [] = .ok a w := by
  obtain ⟨⟨rest, hspelled, -⟩, hdepth⟩ := htree
  obtain ⟨c, hread, hrest⟩ := Reader.run_outcome_eq_ok_iff.1 (Reading.value?_eq_some_iff.1 h)
  -- a reader that has gone astray leaves something behind, and then the text is refused
  rcases Schema.strays s Reader.maxDepth _ _ _ _ _ _ hspelled hdepth hread with
    ⟨htame, -, hx⟩ | hstuck | ⟨-, hwithin⟩
  · exact ⟨htame, _, hx⟩
  · have hastray : Reader.Astray Reader.maxDepth c.rest rest := .inl hstuck
    exact absurd hrest hastray.unspaced_ne_nil
  · have hastray : Reader.Astray Reader.maxDepth c.rest rest := .inr hwithin
    exact absurd hrest hastray.unspaced_ne_nil

/-- What a tree gives for a tame document is read directly as well, in either way. -/
theorem Schema.run_read_of_tame {s : Schema α} {json : Json} {text : Bytes} {a : α}
    {w : List TimeoutWarning} (mode : Resumption) (htree : json.IsTreeOf text)
    (htame : s.tame json = true) (hx : s.extract json [] = .ok a w) :
    Reader.run (s.read mode Reader.maxDepth) text = ⟨.ok a, w⟩ := by
  obtain ⟨⟨rest, hspelled, hrest⟩, hdepth⟩ := htree
  exact Reader.run_eq_of_ok (Schema.follows mode s _ _ _ _ _ _ _ hspelled hdepth htame hx) hrest

/-- On a document that repeats no name, direct reading gives what the tree gives if the document is
tame, and else nothing. -/
theorem Schema.readText_value?_eq_some_iff {s : Schema α} {json : Json} {text : Bytes} {a : α}
    (htree : json.IsTreeOf text) (hdistinct : json.Distinct) :
    (s.readText text).value? = some a ↔
      s.tame json = true ∧ (s.readValue text).value? = some a := by
  rw [Schema.readValue_value?_eq_some_iff]
  constructor
  · intro h
    obtain ⟨htame, w, hx⟩ := Schema.tame_of_readText htree h
    exact ⟨htame, json, w, htree, (Json.resolve_of_distinct hdistinct).symm ▸ hx⟩
  · rintro ⟨htame, j, w, hj, hx⟩
    obtain rfl := htree.unique hj
    rw [Json.resolve_of_distinct hdistinct] at hx
    rw [Schema.readText, Schema.run_read_of_tame .inPlace htree htame hx]
    rfl

/-- Direct reading and reading out of a tree agree on a text whose objects repeat no name exactly if
every lenient choice in it is passed as a whole, unless the tree is refused, and nothing is read
directly where no tree holds the text. -/
theorem Schema.readText_eq_readValue_iff (s : Schema α) (text : Bytes)
    (hdistinct : ∀ json : Json, json.IsTreeOf text → json.Distinct) :
    (s.readText text).value? = (s.readValue text).value? ↔
      (∀ json : Json, json.IsTreeOf text → (s.readValue text).value? ≠ none →
        s.tame json = true) ∧
      ((∀ json : Json, ¬ json.IsTreeOf text) → (s.readText text).value? = none) := by
  -- without a tree there is nothing to take out of one
  have hnone (hno : ∀ json : Json, ¬ json.IsTreeOf text) : (s.readValue text).value? = none := by
    rw [Option.eq_none_iff_forall_ne_some]
    intro a ha
    obtain ⟨json, w, htree, -⟩ := Schema.readValue_value?_eq_some_iff.1 ha
    exact hno json htree
  constructor
  · intro heq
    constructor
    · intro json htree hread
      obtain ⟨a, ha⟩ := Option.ne_none_iff_exists'.1 hread
      exact (Schema.tame_of_readText htree (heq.trans ha)).1
    · intro hno
      exact heq.trans (hnone hno)
  · rintro ⟨htame, hrefused⟩
    by_cases htree : ∃ json : Json, json.IsTreeOf text
    · obtain ⟨json, htree⟩ := htree
      apply Option.ext
      intro a
      rw [Schema.readText_value?_eq_some_iff htree (hdistinct json htree), and_iff_right_iff_imp]
      intro ha
      exact htame json htree (by simp [ha])
    · have hno : ∀ json : Json, ¬ json.IsTreeOf text := fun json h => htree ⟨json, h⟩
      exact (hrefused hno).trans (hnone hno).symm

/-- A name that is not known does no harm. -/
theorem AuthenticatorSelection.readText_of_unknown_name :
    (AuthenticatorSelection.schema.readText
        (utf8 "\x7b\"residentKey\":\"sometimes\",\"userVerification\":\"required\"\x7d")).value? =
      (AuthenticatorSelection.schema.readValue
        (utf8 "\x7b\"residentKey\":\"sometimes\",\"userVerification\":\"required\"\x7d")).value? := by
  have htree : (Json.object [("residentKey", .string "sometimes"),
      ("userVerification", .string "required")]).IsTreeOf
        (utf8 "\x7b\"residentKey\":\"sometimes\",\"userVerification\":\"required\"\x7d") := by
    decide +kernel
  refine (Schema.readText_eq_readValue_iff _ _ fun json h => ?_).2 ⟨fun json h _ => ?_, fun hno => ?_⟩
  · obtain rfl := h.unique htree
    simp [Json.Distinct, Json.MembersDistinct]
  · obtain rfl := h.unique htree
    decide +kernel
  · exact absurd htree (hno _)

/-- A number in the place of a choice takes the whole document along, unless a tree is made of it
first. -/
theorem AuthenticatorSelection.readText_ne_readValue_of_number :
    ∃ (text : Bytes) (json : Json), json.IsTreeOf text ∧ json.Distinct ∧
      (AuthenticatorSelection.schema.readText text).value? = none ∧
        (AuthenticatorSelection.schema.readValue text).value? = some .preset := by
  refine ⟨utf8 "\x7b\"userVerification\":5\x7d", .object [("userVerification", .number (.integer 5))],
    by decide +kernel, ?_, by decide +kernel, by decide +kernel⟩
  simp [Json.Distinct, Json.MembersDistinct]

/-- What is read where failures are passed over behind values only is read off a document. -/
theorem Schema.document_of_readStrictly {s : Schema α} {text : Bytes} {a : α}
    (h : (s.readStrictly text).value? = some a) : Document text := by
  obtain ⟨c, hread, hrest⟩ := Reader.run_outcome_eq_ok_iff.1 (Reading.value?_eq_some_iff.1 h)
  exact ⟨c.rest, Schema.sound s Reader.maxDepth _ _ _ hread, unspaced_eq_nil_iff.1 hrest⟩

/-- A text off which something is read is a document exactly if the same is read where failures are
passed over behind values only, or if it is illegible for a tree. -/
theorem Schema.document_iff_of_readText (s : Schema α) (text : Bytes) (a : α)
    (h : (s.readText text).value? = some a) :
    Document text ↔ (s.readStrictly text).value? = some a ∨ Illegible text := by
  constructor
  · intro hdocument
    -- where a tree holds the text it is tame, and tame documents are read alike in both ways
    by_cases htree : ∃ json : Json, json.IsTreeOf text
    · obtain ⟨json, htree⟩ := htree
      obtain ⟨htame, w, hx⟩ := Schema.tame_of_readText htree h
      left
      rw [Schema.readStrictly, Schema.run_read_of_tame .behindValue htree htame hx]
      rfl
    · exact .inr ⟨hdocument, fun json hjson => htree ⟨json, hjson⟩⟩
  · rintro (hstrict | hillegible)
    · exact Schema.document_of_readStrictly hstrict
    · exact hillegible.1

/-- A document is known for one though a name in it is not. -/
theorem RequestOptions.document_of_unknown_name :
    Document (utf8 "\x7b\"challenge\":\"AAEC\",\"userVerification\":\"maybe\"\x7d") :=
  (Schema.document_iff_of_readText RequestOptions.schema _
    ⟨[0, 1, 2], none, none, [], .preferred, none⟩ (by decide +kernel)).2 (.inl (by decide +kernel))

/-- An empty object in the place of a choice closes the credential around it for the direct reader,
and the brace that is missing behind it is not missed. -/
theorem WireOptions.exists_readText_not_document :
    ∃ text, (WireOptions.schema.readText text).value?.isSome = true ∧ ¬ Document text :=
  ⟨utf8 ("\x7b\"relyingParty\":\x7b\"name\":\"E\"\x7d,\"challenge\":\"AAEC\"," ++
    "\"credentials\":[\x7b\"id\":\"AQ\",\"type\":\x7b\x7d]\x7d"), by decide +kernel, by decide +kernel⟩

/-- In the options of a ceremony it closes the options themselves. -/
example : (RequestOptions.schema.readText
      (utf8 "\x7b\"challenge\":\"AAEC\",\"userVerification\":\x7b\x7d")).value?.isSome = true ∧
    ¬ Document (utf8 "\x7b\"challenge\":\"AAEC\",\"userVerification\":\x7b\x7d") := by
  decide +kernel

end CredentialCeremony
