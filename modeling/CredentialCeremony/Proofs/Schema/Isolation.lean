import CredentialCeremony.Proofs.Schema.Place

set_option autoImplicit false

/-!
# Documents that differ in one part

What becomes of a document one part of which may be filled in various ways, either all or none of
which can be read. Whether the document is refused does not depend on the part, and what is read is
the same but for the part. If the part stands in an entry of a tolerant list that cannot be read, the
entry is dropped, and the part is not seen at all.

Main statement: these are the three outcomes of any such family of documents, wherever the part
stands (`Schema.Outcome.of_place`).
-/

namespace CredentialCeremony.Schema

variable {ι α β γ : Type}

/-- One and the same entry of a tolerant list cannot be read in any of the documents, which differ in
this entry only. -/
def Drops (s : Schema α) (docs : ι → Json) : Prop :=
  ∃ (γ : Type) (element : Schema γ) (doc : Json → Json) (entry : ι → Json) (front back : List Json),
    Place (.tolerant element) s doc ∧ (∀ i, docs i = doc (.array (front ++ entry i :: back))) ∧
      ∀ i b, ¬ element.Answers (entry i) b

/-- What is read of documents that differ in one part, which is `value i` in the document `i`, if it
can be read at all. -/
inductive Outcome (part : Schema β) (value : ι → Option β) (s : Schema α) (docs : ι → Json) :
    Prop where
  /-- None of the documents is read. -/
  | refused (h : ∀ i a, ¬ s.Answers (docs i) a)
  /-- All are read, and as the same but for the part. -/
  | held (f : β → α) (hf : Context part s f)
      (h : ∀ i, ∃ b, value i = some b ∧ s.Answers (docs i) (f b))
  /-- All are read as the same, without the part. -/
  | dropped (a : α) (hdrops : s.Drops docs) (h : ∀ i, s.Answers (docs i) a)

theorem Drops.step {inner : Schema γ} {s : Schema α} {docs : ι → Json} {wrap : Json → Json}
    (h : inner.Drops docs) (hinside : Inside inner s wrap) : s.Drops fun i => wrap (docs i) := by
  obtain ⟨δ, element, doc, entry, front, back, hplace, hdocs, hnone⟩ := h
  exact ⟨δ, element, _, entry, front, back, hplace.step hinside, fun i => congrArg wrap (hdocs i),
    hnone⟩

theorem Drops.entry {element : Schema γ} {docs : ι → Json} (h : element.Drops docs)
    (front back : List Json) :
    (tolerant element).Drops fun i => .array (front ++ docs i :: back) := by
  obtain ⟨δ, inner, doc, entry, front', back', hplace, hdocs, hnone⟩ := h
  exact ⟨δ, inner, _, entry, front', back', .entry front back hplace,
    fun i => congrArg (fun x => Json.array (front ++ x :: back)) (hdocs i), hnone⟩

namespace Outcome

variable {part : Schema β} {value : ι → Option β} {docs : ι → Json}

/-- One step further out, the outcome is the same unless something else refuses the documents. -/
theorem step {inner : Schema γ} {s : Schema α} {wrap : Json → Json}
    (h : Outcome part value inner docs) (hdocs : ∀ i, docs i ≠ .null)
    (hinside : Inside inner s wrap) : Outcome part value s fun i => wrap (docs i) := by
  by_cases hread : ∃ i a, s.Answers (wrap (docs i)) a
  · obtain ⟨i, a, ha⟩ := hread
    obtain ⟨g, b, hg, hb, rfl, hall⟩ := hinside.hands (docs i) a (hdocs i) ha
    cases h with
    | refused hno => exact absurd hb (hno i b)
    | held f hf hheld =>
      refine .held _ (hf.step hg) ?_
      intro j
      obtain ⟨b, hb, hj⟩ := hheld j
      exact ⟨b, hb, hall (docs j) _ (hdocs j) hj⟩
    | dropped a hdrops hsame =>
      exact .dropped (g a) (hdrops.step hinside) fun j => hall (docs j) a (hdocs j) (hsame j)
  · exact .refused fun i a ha => hread ⟨i, a, ha⟩

/-- An entry of a tolerant list that is refused is dropped. -/
theorem entry {element : Schema γ} (h : Outcome part value element docs) (front back : List Json) :
    Outcome part value (.tolerant element) fun i => .array (front ++ docs i :: back) := by
  -- the neighbours of the entry make a front and a back that are kept in any case
  obtain ⟨before, behind, hread⟩ : ∃ before behind : List γ, ∀ i,
      (tolerant element).Answers (.array (front ++ docs i :: back))
        (before ++ ((element.extract (docs i)).answer?.toList ++ behind)) := by
    refine ⟨front.filterMap fun item => (element.extract item).answer?,
      back.filterMap fun item => (element.extract item).answer?,
      fun i => answer?_tolerant_eq_some_iff.2 ⟨_, rfl, ?_⟩⟩
    rw [List.filterMap_append, List.filterMap_cons]
    cases (element.extract (docs i)).answer? <;> rfl
  cases h with
  | refused hno =>
    have hnone (i : ι) : (element.extract (docs i)).answer? = none :=
      Option.eq_none_iff_forall_ne_some.2 (hno i)
    simp only [hnone, Option.toList_none] at hread
    exact .dropped _ ⟨γ, element, id, docs, front, back, .here, fun i => rfl, hno⟩ hread
  | held f hf hheld =>
    refine .held _ (hf.step (.entry element before behind)) ?_
    intro i
    obtain ⟨b, hb, hi⟩ := hheld i
    have hsome : (element.extract (docs i)).answer? = some (f b) := hi
    have hi := hread i
    rw [hsome, Option.toList_some] at hi
    exact ⟨b, hb, hi⟩
  | dropped a hdrops hsame =>
    have hsome (i : ι) : (element.extract (docs i)).answer? = some a := hsame i
    simp only [hsome, Option.toList_some] at hread
    exact .dropped _ (hdrops.entry front back) hread

/-- Wherever the part stands, the outcome is one of the three. -/
theorem of_place {inner : Schema γ} {s : Schema α} {doc : Json → Json}
    (h : Outcome part value inner docs) (hdocs : ∀ i, docs i ≠ .null) (hplace : Place inner s doc) :
    Outcome part value s fun i => doc (docs i) := by
  induction hplace with
  | here => exact h
  | step hplace hinside ih => exact ih.step (fun i => hplace.ne_null (hdocs i)) hinside
  | entry front back _ ih => exact ih.entry front back

/-- Whether one of the documents is read does not depend on the part. -/
theorem read_iff {s : Schema α} (h : Outcome part value s docs) (i j : ι) :
    (∃ a, s.Answers (docs i) a) ↔ ∃ a, s.Answers (docs j) a := by
  cases h with
  | refused hno => exact iff_of_false (fun ⟨a, ha⟩ => hno i a ha) fun ⟨a, ha⟩ => hno j a ha
  | held f hf hheld =>
    obtain ⟨b, -, hi⟩ := hheld i
    obtain ⟨c, -, hj⟩ := hheld j
    exact iff_of_true ⟨_, hi⟩ ⟨_, hj⟩
  | dropped a hdrops hsame => exact iff_of_true ⟨a, hsame i⟩ ⟨a, hsame j⟩

end Outcome
end CredentialCeremony.Schema
