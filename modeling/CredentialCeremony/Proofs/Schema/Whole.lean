import CredentialCeremony.Proofs.Schema.Answer
import CredentialCeremony.Proofs.Schema.Tolerance

set_option autoImplicit false

/-!
# Whole texts and their trees

A text is read as a value with certain warnings exactly if the tree of the text gives that value with
these warnings. Through a tree this is so without exception (`Schema.readValue_eq_ok_iff`), and
directly for what is read exactly (`Reader.Exact.run_eq_ok_iff`) and for every tame document
(`Schema.readText_eq_ok_iff`).
-/

namespace CredentialCeremony

variable {α : Type} {text : Bytes} {a : α} {w : List TimeoutWarning}

/-- What is answered without a log is answered behind any log, with the same entries added. -/
theorem Extractor.Logs.of_answer? {x : Extractor α} (hx : x.Logs) (h : x.answer? = some a) :
    ∃ added, ∀ v, x v = .ok a (v ++ added) := by
  obtain ⟨added, hadded⟩ := (hx.answers_iff []).2 h
  refine ⟨added, fun v => ?_⟩
  rw [hx v, hadded]
  rfl

/-- A text holds one value at most. -/
theorem Json.Fills.unique {j₁ j₂ : Json} (h₁ : j₁.Fills text) (h₂ : j₂.Fills text) : j₁ = j₂ := by
  obtain ⟨r₁, hspelled₁, -⟩ := h₁
  obtain ⟨r₂, hspelled₂, -⟩ := h₂
  exact (hspelled₁.unique hspelled₂).1

theorem Reading.value?_eq_some_iff_exists {r : Reading α} :
    r.value? = some a ↔ ∃ w, r = ⟨.ok a, w⟩ := by
  rw [Reading.value?_eq_some_iff]
  constructor
  · intro h
    exact ⟨r.warnings, congrArg (Reading.mk · r.warnings) h⟩
  · rintro ⟨w, rfl⟩
    rfl

/-- A whole text is answered with the warnings of the run that reads it. -/
theorem Reader.run_eq_ok_iff {r : Reader α} :
    Reader.run r text = ⟨.ok a, w⟩ ↔
      ∃ c, r ⟨text, []⟩ = .ok a c ∧ unspaced c.rest = [] ∧ c.warnings = w := by
  constructor
  · intro h
    obtain ⟨c, hread, hrest⟩ := run_outcome_eq_ok_iff.1 (congrArg Reading.outcome h)
    have hwarnings := (run_eq_of_ok hread hrest).symm.trans h
    exact ⟨c, hread, hrest, congrArg Reading.warnings hwarnings⟩
  · rintro ⟨c, hread, hrest, rfl⟩
    exact run_eq_of_ok hread hrest

/-- What is read exactly is read off the texts whose trees give it. -/
theorem Reader.Exact.run_eq_ok_iff {r : Reader α} {x : Json → Extractor α}
    (h : Exact maxDepth r x) :
    Reader.run r text = ⟨.ok a, w⟩ ↔ ∃ json : Json, json.IsTreeOf text ∧ x json [] = .ok a w := by
  rw [Reader.run_eq_ok_iff]
  constructor
  · rintro ⟨c, hread, hrest, rfl⟩
    obtain ⟨json, hspelled, hdepth, hx⟩ := (h _ _ _).1 hread
    exact ⟨json, ⟨⟨c.rest, hspelled, hrest⟩, hdepth⟩, hx⟩
  · rintro ⟨json, ⟨⟨rest, hspelled, hrest⟩, hdepth⟩, hx⟩
    exact ⟨⟨rest, w⟩, (h _ _ _).2 ⟨json, hspelled, hdepth, hx⟩, hrest, rfl⟩

namespace Schema

variable {s : Schema α}

theorem readValue_of_extract {json : Json} (htree : json.IsTreeOf text)
    (hx : s.extract json.resolve [] = .ok a w) : s.readValue text = ⟨.ok a, w⟩ := by
  simp only [readValue, Reader.run_value_eq htree, hx]

/-- Through a tree, a text is read as what the tree gives with its names resolved. -/
theorem readValue_eq_ok_iff : s.readValue text = ⟨.ok a, w⟩ ↔
    ∃ json : Json, json.IsTreeOf text ∧ s.extract json.resolve [] = .ok a w := by
  constructor
  · intro h
    obtain ⟨json, v, htree, hx⟩ := readValue_value?_eq_some_iff.1
      (Reading.value?_eq_some_iff.2 (congrArg Reading.outcome h))
    have hread := (readValue_of_extract htree hx).symm.trans h
    exact ⟨json, htree, hx.trans (congrArg _ (congrArg Reading.warnings hread))⟩
  · rintro ⟨json, htree, hx⟩
    exact readValue_of_extract htree hx

/-- Through a tree, what is read off a text is what its tree answers. -/
theorem readValue_value?_of_tree {json : Json} (htree : json.IsTreeOf text) :
    (s.readValue text).value? = (s.extract json.resolve).answer? := by
  apply Option.ext
  intro a
  rw [readValue_value?_eq_some_iff, ← (s.extract_logs json.resolve).answers_iff []]
  constructor
  · rintro ⟨j, w, hj, hx⟩
    obtain rfl := htree.unique hj
    exact ⟨w, hx⟩
  · rintro ⟨w, hx⟩
    exact ⟨json, w, htree, hx⟩

/-- A text that a tree holds is read directly as what the tree gives, if the tree is tame. -/
theorem readText_eq_ok_iff {json : Json} (htree : json.IsTreeOf text) :
    s.readText text = ⟨.ok a, w⟩ ↔ s.tame json = true ∧ s.extract json [] = .ok a w := by
  constructor
  · intro h
    obtain ⟨htame, v, hx⟩ :=
      tame_of_readText htree (Reading.value?_eq_some_iff.2 (congrArg Reading.outcome h))
    have hrun := run_read_of_tame .inPlace htree htame hx
    exact ⟨htame, hx.trans (congrArg _ (congrArg Reading.warnings (hrun.symm.trans h)))⟩
  · rintro ⟨htame, hx⟩
    exact run_read_of_tame .inPlace htree htame hx

end Schema
end CredentialCeremony
