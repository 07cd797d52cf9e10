import CredentialCeremony.Options.Resolved
import CredentialCeremony.Options.Server
import CredentialCeremony.Proofs.Options.TolerantLists
import CredentialCeremony.Proofs.Schema.Isolation

set_option autoImplicit false

/-!
# Fields that tolerate unknown values

Some fields of a ceremony hold one of several names, and a default for anything else
(`LenientField`). Where a document is read through a tree, such a value has an end before it is looked
at, so that it has an effect on its own field alone, at whatever depth that stands.

Main statement: a document with an unknown value in one of these fields is read if and only if it is
with a known one, and as the same but for the field, which holds its default
(`unknown_values_isolated`).
-/

namespace CredentialCeremony

open Extractor Schema

variable {α β γ ρ : Type}

/-! ## Names and other values -/

/-- The value writes this alternative: as its name, or as an object of the name and null. -/
def Choice.Spells (c : Choice γ) (v : γ) (json : Json) : Prop :=
  ∃ name, c.ofName name = .ok v ∧ (json = .string name ∨ json = .object [(name, .null)])

/-- The value writes one of the alternatives. -/
def Choice.Knows (c : Choice γ) (json : Json) : Prop := ∃ v, c.Spells v json

theorem Choice.spells_string (c : Choice γ) (v : γ) : c.Spells v (.string (c.nameOf v)) :=
  ⟨_, c.ofName_nameOf v, .inl rfl⟩

theorem Choice.spells_object (c : Choice γ) (v : γ) :
    c.Spells v (.object [(c.nameOf v, .null)]) :=
  ⟨_, c.ofName_nameOf v, .inr rfl⟩

theorem Extractor.answer?_choice_eq_some_iff {c : Choice γ} {json : Json} {v : γ} :
    (choice c json).answer? = some v ↔ c.Spells v json := by
  rw [← (logs_choice c json).answers_iff []]
  simp only [Reader.extractor_choice_eq_ok_iff, Choice.Spells]
  grind

/-- The schema reads an alternative, held as `known`, or else the default. -/
inductive Schema.Lenient : {β γ : Type} → Schema β → Choice γ → (known : γ → β) → (default : β) →
    Prop where
  | choice {γ : Type} (c : Choice γ) (default : γ) : Lenient (.lenient c default) c id default
  | option {γ : Type} (c : Choice γ) : Lenient (.lenientOption c) c some none

namespace Schema.Lenient

variable {field : Schema β} {names : Choice γ} {known : γ → β} {default : β}

theorem answers_known (h : field.Lenient names known default) {v : γ} {json : Json}
    (hv : names.Spells v json) : field.Answers json (known v) := by
  have hchoice := answer?_choice_eq_some_iff.2 hv
  cases h with
  | choice =>
    rw [Answers, extract, answer?_map, answer?_attempt, hchoice]
    rfl
  | option =>
    have hnull : json ≠ .null := by
      rintro rfl
      obtain ⟨name, -, hjson | hjson⟩ := hv <;> cases hjson
    rw [Answers, extract_lenientOption, Reader.choiceOrNone_of_ne_null hnull, answer?_attempt, hchoice]

theorem answers_default (h : field.Lenient names known default) {json : Json}
    (hjson : ¬ names.Knows json) : field.Answers json default := by
  have hchoice : (Extractor.choice names json).answer? = none := by
    rw [Option.eq_none_iff_forall_ne_some]
    exact fun v hv => hjson ⟨v, answer?_choice_eq_some_iff.1 hv⟩
  cases h with
  | choice =>
    rw [Answers, extract, answer?_map, answer?_attempt, hchoice]
    rfl
  | option =>
    by_cases hnull : json = .null
    · subst hnull
      rfl
    · rw [Answers, extract_lenientOption, Reader.choiceOrNone_of_ne_null hnull, answer?_attempt,
        hchoice]

/-- Every value is read. -/
theorem exists_answer (h : field.Lenient names known default) (json : Json) :
    ∃ b, field.Answers json b := by
  by_cases hjson : names.Knows json
  · obtain ⟨v, hv⟩ := hjson
    exact ⟨_, h.answers_known hv⟩
  · exact ⟨_, h.answers_default hjson⟩

end Schema.Lenient

/-! ## The fields -/

/-- The place of a field in the document of its record: the member of its name or, in an array, the
element at its position. -/
inductive FieldPlace (name : String) (index : Nat) : (Json → Json) → Prop where
  | member (front back : List (String × Json)) :
      FieldPlace name index fun x => .object (front ++ (name, x) :: back)
  | element (front back : List Json) (h : front.length = index) :
      FieldPlace name index fun x => .array (front ++ x :: back)

theorem FieldPlace.ne_null {name : String} {index : Nat} {inner : Json → Json}
    (h : FieldPlace name index inner) (x : Json) : inner x ≠ .null := by
  cases h <;> exact Json.noConfusion

/-- A record that is read is the same with any other value for its field, but for this field. -/
theorem Schema.HasField.frame {r : Schema ρ} {name : String} {field : Schema β}
    {presence : Presence β} {index : Nat} {get : ρ → β} {inner : Json → Json}
    (h : r.HasField name field presence index get) (hinner : FieldPlace name index inner) {x : Json}
    {a : ρ} (ha : r.Answers (inner x) a) :
    ∃ put, field.Frame r put ∧ Function.LeftInverse get put ∧
      ∀ x' b, field.Answers x' b → r.Answers (inner x') (put b) := by
  obtain ⟨τ, σ, fields, layout, part, rfl, hhas, hget⟩ := h
  cases hinner with
  | member front back =>
    obtain ⟨put, c, hput, hpart, -, -, hall⟩ := frame_of_member layout hhas.selects ha
    exact ⟨_, .field layout hput, fun b => (hget _).trans (hpart b), hall⟩
  | element front back hindex =>
    obtain ⟨put, c, hput, hpart, -, -, hall⟩ := frame_of_element layout hhas.atIndex hindex ha
    exact ⟨_, .field layout hput, fun b => (hget _).trans (hpart b), hall⟩

/-- The fields of a ceremony that tolerate unknown values: the schema of the record, the name and the
position of the field, its schema, its alternatives, how it holds them, and its default. -/
inductive LenientField : {ρ β γ : Type} → (r : Schema ρ) → (name : String) → (index : Nat) →
    (get : ρ → β) → (field : Schema β) → (names : Choice γ) → (known : γ → β) → (default : β) →
    Prop where
  | keyKind : LenientField KeyParameters.schema "type" 0 KeyParameters.kind
      (.lenient CredentialKind.names .preset) CredentialKind.names id .unknown
  | descriptorKind : LenientField CredentialDescriptor.schema "type" 0 CredentialDescriptor.kind
      (.lenient CredentialKind.names .preset) CredentialKind.names id .unknown
  | wireKind : LenientField WireDescriptor.schema "type" 0 WireDescriptor.kind
      (.lenient CredentialKind.names .preset) CredentialKind.names id .unknown
  | credentialKind {ρ : Type} (response : Schema ρ) : LenientField (Credential.schema response) "type"
      2 Credential.kind (.lenient CredentialKind.names .preset) CredentialKind.names id .unknown
  | credentialAttachment {ρ : Type} (response : Schema ρ) :
      LenientField (Credential.schema response) "authenticatorAttachment" 4
        Credential.authenticatorAttachment (.lenientOption Attachment.names) Attachment.names some
        none
  | attachment : LenientField AuthenticatorSelection.schema "authenticatorAttachment" 0
      AuthenticatorSelection.authenticatorAttachment (.lenientOption Attachment.names)
      Attachment.names some none
  | residentKey : LenientField AuthenticatorSelection.schema "residentKey" 1
      AuthenticatorSelection.residentKey (.lenientOption ResidentKey.names) ResidentKey.names some
      none
  | selectionVerification : LenientField AuthenticatorSelection.schema "userVerification" 3
      AuthenticatorSelection.userVerification (.lenient UserVerification.names .preset)
      UserVerification.names id .preferred
  | requestVerification : LenientField RequestOptions.schema "userVerification" 4
      RequestOptions.userVerification (.lenient UserVerification.names .preset)
      UserVerification.names id .preferred
  | attestation : LenientField CreationOptions.schema "attestation" 7 CreationOptions.attestation
      (.lenientOption Attestation.names) Attestation.names some none

namespace LenientField

variable {r : Schema ρ} {name : String} {index : Nat} {get : ρ → β} {field : Schema β}
  {names : Choice γ} {known : γ → β} {default : β}

theorem lenient (h : LenientField r name index get field names known default) :
    field.Lenient names known default := by
  cases h <;> constructor

theorem hasField (h : LenientField r name index get field names known default) :
    ∃ presence, r.HasField name field presence index get := by
  cases h with
  | keyKind | descriptorKind | wireKind | attachment =>
    exact ⟨_, _, _, _, _, _, rfl, .here, fun _ => rfl⟩
  | residentKey => exact ⟨_, _, _, _, _, _, rfl, .there (by simp) .here, fun _ => rfl⟩
  | credentialKind =>
    exact ⟨_, _, _, _, _, _, rfl, .there (by simp) (.there (by simp) .here), fun _ => rfl⟩
  | selectionVerification =>
    exact ⟨_, _, _, _, _, _, rfl, .there (by simp) (.there (by simp) (.there (by simp) .here)),
      fun _ => rfl⟩
  | credentialAttachment | requestVerification =>
    exact ⟨_, _, _, _, _, _, rfl, .there (by simp) (.there (by simp) (.there (by simp)
      (.there (by simp) .here))), fun _ => rfl⟩
  | attestation =>
    exact ⟨_, _, _, _, _, _, rfl, .there (by simp) (.there (by simp) (.there (by simp)
      (.there (by simp) (.there (by simp) (.there (by simp) (.there (by simp) .here)))))),
      fun _ => rfl⟩

/-- A record is read whatever stands in a tolerant field, as the same but for the field, or it is
refused whatever stands there. -/
theorem outcome (h : LenientField r name index get field names known default)
    {inner : Json → Json} (hinner : FieldPlace name index inner) :
    ∃ part, Outcome r part r inner ∧ ((∀ x, part x = none) ∨ ∃ put, field.Frame r put ∧
      Function.LeftInverse get put ∧ ∀ x b, field.Answers x b → part x = some (put b)) := by
  obtain ⟨presence, hhas⟩ := h.hasField
  by_cases hread : ∃ x a, r.Answers (inner x) a
  · obtain ⟨x, a, ha⟩ := hread
    obtain ⟨put, hput, hget, hall⟩ := hhas.frame hinner ha
    have hpart (x : Json) (b : β) (hb : field.Answers x b) :
        (field.extract x).answer?.map put = some (put b) :=
      congrArg (Option.map put) hb
    refine ⟨fun x => (field.extract x).answer?.map put, .held id .here ?_, .inr ⟨put, hput, hget, hpart⟩⟩
    intro x
    obtain ⟨b, hb⟩ := h.lenient.exists_answer x
    exact ⟨put b, hpart x b hb, hall x b hb⟩
  · refine ⟨fun _ => none, .refused ?_, .inl fun _ => rfl⟩
    intro x a ha
    exact hread ⟨x, a, ha⟩

end LenientField

section Documents

variable {r : Schema ρ} {name : String} {index : Nat} {get : ρ → β} {field : Schema β}
  {names : Choice γ} {known : γ → β} {default : β} {s : Schema α} {inner outer : Json → Json}

/-- A document with a tolerant field, at any depth, is read whatever stands in the field, or it is
refused whatever stands there. If it is read, then as the same but for the field, which holds what
is written if that is one of the alternatives, and else its default; only if the field stands in an
entry of a tolerant list that cannot be read for another reason, the field is not seen at all. -/
theorem unknown_values_isolated
    (hfield : LenientField r name index get field names known default)
    (hinner : FieldPlace name index inner) (houter : Place r s outer) :
    (∀ v, field.Answers (.string (names.nameOf v)) (known v) ∧
      field.Answers (.object [(names.nameOf v, .null)]) (known v)) ∧
    (∀ x y, (∃ a, s.Answers (outer (inner x)) a) ↔ ∃ a, s.Answers (outer (inner y)) a) ∧
    ((∃ put f, field.Frame r put ∧ Function.LeftInverse get put ∧ r.Context s f ∧
        Function.Injective f ∧
        (∀ x, ¬ names.Knows x → s.Answers (outer (inner x)) (f (put default))) ∧
        ∀ v y, names.Spells v y → s.Answers (outer (inner y)) (f (put (known v)))) ∨
      (∃ a, s.Drops (fun x => outer (inner x)) ∧ ∀ x, s.Answers (outer (inner x)) a) ∨
      ∀ x a, ¬ s.Answers (outer (inner x)) a) ∧
    ∀ text (json : Json) x, json.IsTreeOf text → json.resolve = outer (inner x) →
      ∀ a, (s.readValue text).value? = some a ↔ s.Answers (outer (inner x)) a := by
  have hlenient := hfield.lenient
  obtain ⟨part, hrecord, hpart⟩ := hfield.outcome hinner
  have houtcome := hrecord.of_place hinner.ne_null houter
  refine ⟨?_, houtcome.read_iff, ?_, ?_⟩
  · intro v
    exact ⟨hlenient.answers_known (names.spells_string v), hlenient.answers_known (names.spells_object v)⟩
  · cases houtcome with
    | refused hno => exact .inr (.inr hno)
    | dropped a hdrops hsame => exact .inr (.inl ⟨a, hdrops, hsame⟩)
    | held f hf hheld =>
      rcases hpart with hnone | ⟨put, hput, hget, hpart⟩
      · obtain ⟨b, hb, -⟩ := hheld .null
        exact absurd hb (by simp [hnone])
      have hholds (x : Json) (b : β) (hb : field.Answers x b) :
          s.Answers (outer (inner x)) (f (put b)) := by
        obtain ⟨c, hc, hx⟩ := hheld x
        obtain rfl := Option.some.inj (hc.symm.trans (hpart x b hb))
        exact hx
      refine .inl ⟨put, f, hput, hget, hf, hf.injective, ?_, ?_⟩
      · intro x hx
        exact hholds x default (hlenient.answers_default hx)
      · intro v y hy
        exact hholds y (known v) (hlenient.answers_known hy)
  · intro text json x htree hresolve a
    rw [readValue_value?_of_tree htree, hresolve, Answers]

/-- An object with a name that is known, but not with null, is an unknown kind of the credential, and
the options around it are read with the credential in its list. -/
theorem unknown_values_isolated_of_object :
    ∃ a, RequestOptions.schema.Answers (.object [("challenge", .string "AAEC"),
        ("allowCredentials", .array [.object [("id", .string "AQ"),
          ("type", .object [("public-key", .bool true)])]])]) a ∧
      a.allowCredentials = [⟨.unknown, [1], none⟩] := by
  have hinner : FieldPlace "type" 0 fun x => .object ([("id", .string "AQ")] ++ ("type", x) :: []) :=
    .member _ _
  have houter : Place CredentialDescriptor.schema RequestOptions.schema fun x =>
      .object ([("challenge", .string "AAEC")] ++
        ("allowCredentials", .array ([] ++ x :: [])) :: []) :=
    .step (.step (.entry [] [] .here) (.listOrNull _))
      (.member _ (.there (by simp) (.there (by simp) (.there (by simp) (.here (.inl rfl))))) _ _)
  have hknown : RequestOptions.schema.Answers (.object [("challenge", .string "AAEC"),
      ("allowCredentials", .array [.object [("id", .string "AQ"),
        ("type", .string "public-key")]])])
      ⟨[0, 1, 2], none, none, [⟨.publicKey, [1], none⟩], .preferred, none⟩ := by
    decide +kernel
  have hunknown : RequestOptions.schema.Answers (.object [("challenge", .string "AAEC"),
      ("allowCredentials", .array [.object [("id", .string "AQ"),
        ("type", .object [("public-key", .bool true)])]])])
      ⟨[0, 1, 2], none, none, [⟨.unknown, [1], none⟩], .preferred, none⟩ := by
    decide +kernel
  obtain ⟨-, hiff, -⟩ := unknown_values_isolated .descriptorKind hinner houter
  obtain ⟨a, ha⟩ := (hiff (.object [("public-key", .bool true)]) (.string "public-key")).2 ⟨_, hknown⟩
  obtain rfl := ha.unique hunknown
  exact ⟨_, ha, rfl⟩

end Documents
end CredentialCeremony
