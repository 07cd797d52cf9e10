import CredentialCeremony.Options.Server
import CredentialCeremony.Proofs.Schema.Field

set_option autoImplicit false

/-!
# Acceptable keys in a document

The keys that a server accepts stand in a list, each entry of which is read by itself: it is an
object with one type and one algorithm, or an array of the two. The type may be any value at all,
the algorithm is a whole number of 64 bits (`KeyParameters.ofEntry?`). What is no entry is dropped.

Main statements: a tree answers a key exactly if it is an entry (`KeyParameters.answer?_extract`),
and the keys of served options are the entries of the one list in their document
(`WireOptions.ReadAs.listed`).
-/

namespace CredentialCeremony

open Grammar

/-- The kind that the type of an entry stands for. -/
def CredentialKind.ofType (json : Json) : CredentialKind :=
  if json = .string "public-key" ∨ json = .object [("public-key", .null)] then .publicKey
  else .unknown

/-- The whole number of 64 bits that a value is. -/
def AlgorithmId.ofNumber? : Json → Option AlgorithmId
  | .number (.integer n) =>
    if -0x8000000000000000 ≤ n ∧ n < 0x8000000000000000 then some (Int64.ofInt n) else none
  | _ => none

/-- The acceptable key that a value is an entry for. -/
def KeyParameters.ofEntry? : Json → Option KeyParameters
  | .object members => do
    let kind ← onlyNamed "type" members
    let algorithm ← onlyNamed "alg" members
    return ⟨.ofType kind, ← AlgorithmId.ofNumber? algorithm⟩
  | .array [kind, algorithm] => return ⟨.ofType kind, ← AlgorithmId.ofNumber? algorithm⟩
  | _ => none

/-- The entry that is written for an acceptable key. -/
def KeyParameters.entry (k : KeyParameters) : Json :=
  .object [
    ("type", .string (match k.kind with | .publicKey => "public-key" | .unknown => "unknown")),
    ("alg", .number (.integer k.algorithm.toInt))]

/-- A value is taken for an algorithm exactly if it is the same number. -/
theorem AlgorithmId.ofNumber?_eq_some_iff {json : Json} {a : AlgorithmId} :
    AlgorithmId.ofNumber? json = some a ↔ json = .number (.integer a.toInt) := by
  constructor
  · intro h
    unfold AlgorithmId.ofNumber? at h
    split at h
    · split at h
      · rename_i n hrange
        cases h
        rw [Int64.toInt_ofInt_of_le hrange.1 hrange.2]
      · cases h
    · cases h
  · rintro rfl
    have hrange : -0x8000000000000000 ≤ a.toInt ∧ a.toInt < 0x8000000000000000 :=
      ⟨a.le_toInt, a.toInt_lt⟩
    rw [AlgorithmId.ofNumber?, if_pos hrange, Int64.ofInt_toInt]

theorem KeyParameters.toJson_eq_entry (k : KeyParameters) :
    KeyParameters.schema.toJson k = k.entry := by
  obtain ⟨kind, algorithm⟩ := k
  cases kind <;> rfl

/-! ## What a tree answers -/

theorem CredentialKind.ofName_eq_publicKey_iff {name : String} :
    CredentialKind.names.ofName name = .ok .publicKey ↔ name = "public-key" := by
  by_cases hkey : name = "public-key"
  · subst hkey
    exact iff_of_true rfl rfl
  · have hne : (name == "public-key") = false := beq_eq_false_iff_ne.2 hkey
    cases hunknown : name == "unknown" <;>
      simp [Choice.ofName, CredentialKind.names, List.lookup_cons, hne, hunknown, hkey]

/-- A type is never refused: it is the known kind, or unknown. -/
theorem CredentialKind.answers_lenient_iff {json : Json} {kind : CredentialKind} :
    (Schema.lenient CredentialKind.names .preset).Answers json kind ↔
      CredentialKind.ofType json = kind := by
  have hanswer : (Extractor.choice CredentialKind.names json).answer? = some .publicKey ↔
      json = .string "public-key" ∨ json = .object [("public-key", .null)] := by
    rw [← (Extractor.logs_choice _ json).answers_iff []]
    simp only [Reader.extractor_choice_eq_ok_iff, CredentialKind.ofName_eq_publicKey_iff]
    grind
  rw [Schema.Answers, Schema.extract, Extractor.answer?_map, Extractor.answer?_attempt,
    Option.map_some, Option.some.injEq, CredentialKind.ofType]
  by_cases hkey : json = .string "public-key" ∨ json = .object [("public-key", .null)]
  · rw [hanswer.2 hkey, if_pos hkey]
    rfl
  -- whatever else is answered is the unknown kind, which is the default as well
  · rw [if_neg hkey]
    cases hchoice : (Extractor.choice CredentialKind.names json).answer? with
    | none => rfl
    | some k =>
      cases k with
      | publicKey => exact absurd (hanswer.1 hchoice) hkey
      | unknown => rfl

theorem AlgorithmId.answers_integer_iff {json : Json} {a : AlgorithmId} :
    Schema.integer.Answers json a ↔ AlgorithmId.ofNumber? json = some a := by
  rw [Schema.Answers]
  cases json with
  | number n =>
    cases n with
    | integer n =>
      simp only [Schema.extract, Extractor.integer, AlgorithmId.ofNumber?]
      split <;> rfl
    | double x => rfl
  | _ => rfl

theorem KeyParameters.answers_object_iff {members : List (String × Json)} {k : KeyParameters} :
    KeyParameters.schema.Answers (.object members) k ↔
      KeyParameters.ofEntry? (.object members) = some k := by
  have halg : onlyNamed "alg" (otherMembers "type" [] members) = onlyNamed "alg" members :=
    onlyNamed_otherMembers (by simp)
  rw [Schema.Answers, KeyParameters.schema, Schema.answer?_object_eq_some_iff]
  simp only [Fields.Gathers, Fields.required, Fields.Settle, Fields.unread,
    Presence.settles_required_iff, halg, CredentialKind.answers_lenient_iff,
    AlgorithmId.answers_integer_iff, KeyParameters.ofEntry?, Option.bind_eq_bind,
    Option.bind_eq_some_iff, Option.pure_def, Option.some.injEq, Prod.exists]
  grind

theorem KeyParameters.answers_array_iff {items : List Json} {k : KeyParameters} :
    KeyParameters.schema.Answers (.array items) k ↔
      KeyParameters.ofEntry? (.array items) = some k := by
  rw [Schema.Answers, KeyParameters.schema, Schema.answer?_array_eq_some_iff]
  simp only [Fields.Lists, Fields.required, Prod.exists]
  rcases items with _ | ⟨kind, _ | ⟨algorithm, _ | ⟨third, more⟩⟩⟩
  · simp [KeyParameters.ofEntry?, Presence.Given, Presence.absent?]
  · simp [KeyParameters.ofEntry?, Presence.Given, Presence.absent?]
  · simp only [KeyParameters.ofEntry?, List.head?_cons, List.tail_cons, Presence.Given,
      CredentialKind.answers_lenient_iff, AlgorithmId.answers_integer_iff, Option.bind_eq_bind,
      Option.bind_eq_some_iff, Option.pure_def, Option.some.injEq]
    grind
  · simp [KeyParameters.ofEntry?]

/-- A tree answers an acceptable key exactly if it is an entry for it. -/
theorem KeyParameters.answer?_extract (json : Json) :
    (KeyParameters.schema.extract json).answer? = KeyParameters.ofEntry? json := by
  cases json with
  | object members => exact Option.ext fun k => KeyParameters.answers_object_iff
  | array items => exact Option.ext fun k => KeyParameters.answers_array_iff
  | _ => rfl

/-! ## The keys of served options -/

/-- The options are read off the document, directly or through a tree of it; `seen` is what becomes
of a value on the way, since a tree keeps the last one of repeated names. A direct reader may go
astray in a document that no tree can hold, so there it has to read the same where it passes over
failures behind values only. -/
inductive WireOptions.ReadAs (text : Bytes) (wire : WireOptions) : (seen : Json → Json) → Prop where
  | directly : (WireOptions.schema.readText text).value? = some wire → Document text →
      (Illegible text → (WireOptions.schema.readStrictly text).value? = some wire) →
        ReadAs text wire id
  | throughTree : (WireOptions.schema.readValue text).value? = some wire →
      ReadAs text wire Json.resolve

/-- These are the readable entries of the list of acceptable keys, in their order; a document
without the list has none. -/
def KeyParameters.Listed (seen : Json → Json) (document : Outline Bytes)
    (keys : List KeyParameters) : Prop :=
  match document.field? "pubKeyCredParams" 3 with
  | none => keys = []
  | some item => ∃ entries behind, (Json.array entries).Spelled item behind ∧
      keys = entries.filterMap fun entry => KeyParameters.ofEntry? (seen entry)

/-- A document lists one sequence of acceptable keys. -/
theorem KeyParameters.Listed.unique {seen : Json → Json} {document : Outline Bytes}
    {keys₁ keys₂ : List KeyParameters} (h₁ : KeyParameters.Listed seen document keys₁)
    (h₂ : KeyParameters.Listed seen document keys₂) : keys₁ = keys₂ := by
  unfold KeyParameters.Listed at h₁ h₂
  cases hitem : document.field? "pubKeyCredParams" 3 with
  | none =>
    rw [hitem] at h₁ h₂
    exact Eq.trans h₁ (Eq.symm h₂)
  | some item =>
    rw [hitem] at h₁ h₂
    obtain ⟨entries₁, behind₁, hspelled₁, rfl⟩ := h₁
    obtain ⟨entries₂, behind₂, hspelled₂, rfl⟩ := h₂
    cases (hspelled₁.unique hspelled₂).1
    rfl

theorem WireOptions.hasField_keyParameters :
    WireOptions.schema.HasField "pubKeyCredParams" (.tolerant KeyParameters.schema)
      (.defaulted []) 3 WireOptions.keyParameters :=
  ⟨_, _, _, _, _, rfl, .there (by simp) (.there (by simp) (.there (by simp) .here)), fun _ => rfl⟩

theorem KeyParameters.answers_tolerant_iff {json : Json} {keys : List KeyParameters} :
    (Schema.tolerant KeyParameters.schema).Answers json keys ↔
      ∃ entries, json = .array entries ∧ keys = entries.filterMap KeyParameters.ofEntry? := by
  rw [Schema.Answers, Schema.answer?_tolerant_eq_some_iff]
  simp only [KeyParameters.answer?_extract]

/-- The list of acceptable keys holds what its entries are, if arrays are seen as arrays. -/
theorem KeyParameters.listed_of_given {seen : Json → Json} {o : Outline Bytes}
    {keys : List KeyParameters}
    (hseen : ∀ json items, seen json = .array items →
      ∃ entries, json = .array entries ∧ items = entries.map seen)
    (h : (Presence.defaulted []).Given (fun item keys => ∃ (json : Json) (behind : Bytes),
      json.Spelled item behind ∧ (Schema.tolerant KeyParameters.schema).Answers (seen json) keys)
        (o.field? "pubKeyCredParams" 3) keys) : KeyParameters.Listed seen o keys := by
  unfold KeyParameters.Listed
  cases hitem : o.field? "pubKeyCredParams" 3 with
  | none =>
    rw [hitem] at h
    exact (Option.some.inj h).symm
  | some item =>
    rw [hitem] at h
    obtain ⟨json, behind, hspelled, hanswers⟩ := h
    obtain ⟨items, hitems, rfl⟩ := KeyParameters.answers_tolerant_iff.1 hanswers
    obtain ⟨entries, rfl, rfl⟩ := hseen json items hitems
    exact ⟨entries, behind, hspelled, List.filterMap_map ..⟩

/-- A record with the field holds the entries of the one list in its document, if failures are passed
over behind values only. -/
theorem KeyParameters.listed_of_readStrictly {α : Type} {s : Schema α}
    {get : α → List KeyParameters}
    (hfield : s.HasField "pubKeyCredParams" (.tolerant KeyParameters.schema) (.defaulted []) 3 get)
    {text : Bytes} {a : α} (h : (s.readStrictly text).value? = some a) :
    ∃ o : Outline Bytes, o.Of text ∧ KeyParameters.Listed id o (get a) := by
  have hexact (depth : Nat) : Reader.Exact depth
      ((Schema.tolerant KeyParameters.schema).read .behindValue depth)
      (Schema.tolerant KeyParameters.schema).extract :=
    extract_tolerant KeyParameters.schema ▸ Reader.tolerant_exact _ depth
  obtain ⟨o, ho, hgiven⟩ := hfield.of_readStrictly_of_exact hexact h
  refine ⟨o, ho, KeyParameters.listed_of_given ?_ hgiven⟩
  intro json items hitems
  exact ⟨items, hitems, (List.map_id items).symm⟩

/-- Served options hold the entries of the one list in their document. -/
theorem WireOptions.ReadAs.listed {text : Bytes} {wire : WireOptions} {seen : Json → Json}
    (h : WireOptions.ReadAs text wire seen) :
    ∃ o : Outline Bytes, o.Of text ∧ KeyParameters.Listed seen o wire.keyParameters := by
  cases h with
  | directly hread hdocument hillegible =>
    rcases (Schema.document_iff_of_readText _ _ _ hread).1 hdocument with hstrict | h
    · exact KeyParameters.listed_of_readStrictly WireOptions.hasField_keyParameters hstrict
    · exact KeyParameters.listed_of_readStrictly WireOptions.hasField_keyParameters (hillegible h)
  | throughTree hread =>
    obtain ⟨o, ho, hgiven⟩ := WireOptions.hasField_keyParameters.of_readValue hread
    refine ⟨o, ho, KeyParameters.listed_of_given ?_ hgiven⟩
    intro json items hitems
    exact Json.exists_items_of_resolve hitems

end CredentialCeremony
