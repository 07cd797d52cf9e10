import CredentialCeremony.Proofs.Negotiation
import CredentialCeremony.Proofs.Schema.Standing
import CredentialCeremony.Proofs.Submission

set_option autoImplicit false

/-!
# Members of extensions

The inputs and outputs of the extensions are objects with one known member, `credProps`. It is
written in front, and all other members behind it as they were given, each name once
(`Extensions.Carried`). This holds of an object that is read on its own, and of one that stands in a
document: the members of the caller's document reach the platform with any server, and those of a
credential reach the relying party. Even where a tolerant field has led the reader astray, the members
are those of one object in the text, since extensions themselves tolerate nothing.

Main statement: `Extensions.carried_through`.
-/

namespace CredentialCeremony.Extensions

open Grammar

variable {α β κ : Type}

/-! ## What is carried through -/

/-- What a member that may be null is written as, if it is given at this place: nothing if it is not
given or null, and else a member with what is shown of the place. -/
inductive OneMember (name : String) (shown : Bytes → Json → Prop) :
    Option Bytes → List (String × Json) → Prop where
  | absent : OneMember name shown none []
  | null {item behind : Bytes} : Json.null.Spelled item behind → OneMember name shown (some item) []
  | given {item : Bytes} {json : Json} : (∀ behind, ¬ Json.null.Spelled item behind) →
      shown item json → OneMember name shown (some item) [(name, json)]

/-- The value that is spelled at the place. -/
def Unchanged (item : Bytes) (json : Json) : Prop := ∃ behind, json.Spelled item behind

/-- The report on a new credential at the place, reduced to its member `rk`. -/
def Reduced (item : Bytes) (json : Json) : Prop :=
  ∃ (report : Outline Bytes) (behind : Bytes) (members : List (String × Json)),
    report.At item behind ∧ OneMember "rk" Unchanged (report.field? "rk" 0) members ∧
      json = .object members

/-- The members that the object at the place is carried through as: what is shown of `credProps` in
front, and behind it what is kept of all others. -/
inductive Carried (shown : Bytes → Json → Prop) (item : Bytes) : List (String × Json) → Prop where
  | intro {members : List (String × Bytes)} {behind : Bytes}
      {front others kept : List (String × Json)} :
      (Outline.object members).At item behind →
      OneMember "credProps" shown (lastNamed "credProps" members) front →
      List.Forall₂ Json.MemberSpelled (otherMembers "credProps" [] members) others →
      (Json.object others).Kept (.object kept) → Carried shown item (front ++ kept)

/-- An object with the members that the object at the place is carried through as. -/
def CarriedObject (shown : Bytes → Json → Prop) (item : Bytes) (json : Json) : Prop :=
  ∃ members, Carried shown item members ∧ json = .object members

/-! ## One way to carry through -/

theorem OneMember.unique {name : String} {shown : Bytes → Json → Prop}
    (hshown : Relator.RightUnique shown) {item : Option Bytes} {m₁ m₂ : List (String × Json)}
    (h₁ : OneMember name shown item m₁) (h₂ : OneMember name shown item m₂) : m₁ = m₂ := by
  cases h₁ with
  | absent =>
    cases h₂
    rfl
  | null hnull =>
    cases h₂ with
    | null => rfl
    | given hother => exact absurd hnull (hother _)
  | given hother h₁ =>
    cases h₂ with
    | null hnull => exact absurd hnull (hother _)
    | given _ h₂ => rw [hshown h₁ h₂]

theorem unchanged_rightUnique : Relator.RightUnique Unchanged := by
  rintro item json₁ json₂ ⟨behind₁, h₁⟩ ⟨behind₂, h₂⟩
  exact (h₁.unique h₂).1

theorem reduced_rightUnique : Relator.RightUnique Reduced := by
  rintro item json₁ json₂ ⟨report₁, behind₁, m₁, hat₁, h₁, rfl⟩ ⟨report₂, behind₂, m₂, hat₂, h₂, rfl⟩
  obtain rfl := hat₁.unique hat₂
  rw [h₁.unique unchanged_rightUnique h₂]

/-- An object is carried through as one list of members. -/
theorem Carried.unique {shown : Bytes → Json → Prop} (hshown : Relator.RightUnique shown)
    {item : Bytes} {m₁ m₂ : List (String × Json)} (h₁ : Carried shown item m₁)
    (h₂ : Carried shown item m₂) : m₁ = m₂ := by
  obtain ⟨hat₁, hfront₁, hothers₁, hkept₁⟩ := h₁
  obtain ⟨hat₂, hfront₂, hothers₂, hkept₂⟩ := h₂
  cases hat₁.unique hat₂
  obtain rfl := Json.memberSpelled_rightUnique.forall₂ hothers₁ hothers₂
  have hkept := (Json.kept_iff.1 hkept₁).symm.trans (Json.kept_iff.1 hkept₂)
  rw [hfront₁.unique hshown hfront₂, Json.object.inj hkept]

theorem carriedObject_rightUnique {shown : Bytes → Json → Prop} (hshown : Relator.RightUnique shown) :
    Relator.RightUnique (CarriedObject shown) := by
  rintro item json₁ json₂ ⟨members₁, h₁, rfl⟩ ⟨members₂, h₂, rfl⟩
  rw [h₁.unique hshown h₂]

/-! ## What stands at a place is carried through -/

/-- A member that is optional and stands at a place is written as it is shown. -/
theorem oneMember_of_given {name : String} {shown : Bytes → Json → Prop} {schema : Schema β}
    (hshown : ∀ item b, schema.Stands item b → shown item (schema.toJson b))
    {item : Option Bytes} {o : Option β}
    (h : Presence.optional.Given (Schema.nullable schema).Stands item o) :
    OneMember name shown item (o.map fun b => (name, schema.toJson b)).toList := by
  cases item with
  | none =>
    cases h
    exact .absent
  | some item =>
    rcases Schema.Stands.nullable h with ⟨⟨behind, hnull⟩, rfl⟩ | ⟨hother, b, rfl, hb⟩
    · exact .null hnull
    · exact .given hother (hshown item b hb)

/-- The tree that is written for an extensible record: its known member in front. -/
theorem toJson_extensible (name : String) (known : Schema κ) (e : Extensible κ) :
    (Schema.extensible name known).toJson e =
      .object ((e.known.map fun a => (name, known.toJson a)).toList ++ e.others.entries) := by
  obtain ⟨_ | a, others⟩ := e <;> rfl

/-- Where an extensible record stands, it is carried through. -/
theorem carriedObject_of_stands {known : Schema κ} {shown : Bytes → Json → Prop}
    (hshown : ∀ item a, known.Stands item a → shown item (known.toJson a)) {item : Bytes}
    {e : Extensible κ} (h : (Schema.extensible "credProps" known).Stands item e) :
    CarriedObject shown item ((Schema.extensible "credProps" known).toJson e) := by
  obtain ⟨members, behind, others, hat, hknown, hothers, hkept⟩ := h.extensible
  exact ⟨_, .intro hat (oneMember_of_given hshown hknown) hothers hkept, toJson_extensible _ _ e⟩

theorem inputs_of_stands {item : Bytes} {e : ExtensionInputs}
    (h : extensionInputsSchema.Stands item e) :
    CarriedObject Unchanged item (extensionInputsSchema.toJson e) :=
  carriedObject_of_stands (fun _ _ => Schema.Stands.flag) h

theorem hasField_residentKey : CredentialProperties.schema.HasField "rk" (.nullable .flag) .optional 0
    CredentialProperties.residentKey :=
  ⟨_, _, _, _, _, rfl, .here, fun _ => rfl⟩

/-- What the client reports about a new credential is written as its member `rk`. -/
theorem reduced_of_stands {item : Bytes} {p : CredentialProperties}
    (h : CredentialProperties.schema.Stands item p) :
    Reduced item (CredentialProperties.schema.toJson p) := by
  obtain ⟨report, behind, hat, hgiven⟩ := hasField_residentKey.of_stands h
  refine ⟨report, behind, _, hat, oneMember_of_given (fun _ _ => Schema.Stands.flag) hgiven, ?_⟩
  obtain ⟨_ | rk⟩ := p <;> rfl

theorem outputs_of_stands {item : Bytes} {e : ExtensionOutputs}
    (h : extensionOutputsSchema.Stands item e) :
    CarriedObject Reduced item (extensionOutputsSchema.toJson e) :=
  carriedObject_of_stands (fun _ _ => reduced_of_stands) h

/-! ## Options with extensions -/

/-- The options that hold inputs to extensions: the schema of the record, the position of the field
and the field itself. -/
inductive InputsField : {ρ : Type} → (r : Schema ρ) → (index : Nat) →
    (get : ρ → Option ExtensionInputs) → Prop where
  | callerCreation : InputsField CallerCreation.schema 8 CallerCreation.extensions
  | callerRequest : InputsField CallerRequest.schema 5 CallerRequest.extensions
  | creation : InputsField CreationOptions.schema 8 CreationOptions.extensions
  | request : InputsField RequestOptions.schema 5 RequestOptions.extensions

namespace InputsField

variable {ρ : Type} {r : Schema ρ} {index : Nat} {get : ρ → Option ExtensionInputs}

theorem hasField (h : InputsField r index get) :
    r.HasField "extensions" (.nullable extensionInputsSchema) .optional index get := by
  cases h with
  | callerCreation | creation =>
    exact ⟨_, _, _, _, _, rfl, .there (by simp) (.there (by simp) (.there (by simp) (.there (by simp)
      (.there (by simp) (.there (by simp) (.there (by simp) (.there (by simp) .here))))))),
      fun _ => rfl⟩
  | callerRequest | request =>
    exact ⟨_, _, _, _, _, rfl, .there (by simp) (.there (by simp) (.there (by simp) (.there (by simp)
      (.there (by simp) .here)))), fun _ => rfl⟩

theorem faithful (h : InputsField r index get) : r.faithful = true := by
  cases h <;> rfl

theorem lawful (h : InputsField r index get) : r.Lawful := by
  cases h with
  | callerCreation => exact CallerCreation.lawful
  | callerRequest => exact CallerRequest.lawful
  | creation => exact CreationOptions.lawful
  | request => exact RequestOptions.lawful

/-- Nothing but the extensions of options may fail to be written as whole numbers. -/
theorem fits (h : InputsField r index get) {a : ρ}
    (he : ∀ e ∈ get a, extensionInputsSchema.Fits e) : r.Fits a := by
  cases h with
  | callerCreation | creation =>
    iterate 8 apply Fields.Fits.closed rfl
    exact ⟨he, trivial⟩
  | callerRequest | request =>
    iterate 5 apply Fields.Fits.closed rfl
    exact ⟨he, trivial⟩

/-- Extensions that were read and hold no double fit their schema. -/
theorem fits_of_accepts (h : InputsField r index get) {text : Bytes} {a : ρ}
    (ha : r.Accepts text a) (hintegral : ∀ e ∈ get a, e.Integral) :
    ∀ e ∈ get a, extensionInputsSchema.Fits e := by
  intro e he
  have hobtained : r.Obtained a := ⟨text, ha⟩
  have hdrawn := h.hasField.drawn (hobtained.drawn h.lawful) e he
  exact extensionInputsSchema.fits_of_drawn extensionInputs_lawful _ e hdrawn
    (extensionInputs_integral (hintegral e he))

end InputsField

/-! ## Calls -/

/-- The argument of a call is written with these members under the name `extensions`. -/
def WrittenIn (call : Json) (members : List (String × Json)) : Prop :=
  ∃ outer inner, call = .object outer ∧ onlyNamed "publicKey" outer = some (.object inner) ∧
    (inner.filter fun member => member.1 = "extensions") = members

/-- The extensions at the item are carried through to the argument of a call. -/
def CarriedToCall (item : Option Bytes) (call : Json) : Prop :=
  ∃ members, OneMember "extensions" (CarriedObject Unchanged) item members ∧ WrittenIn call members

/-- What a call has from the options of a caller is carried through to it. -/
theorem carriedToCall {γ ρ ω : Type} {caller : Schema γ} {index : Nat}
    {given : γ → Option ExtensionInputs} {call : Schema ρ} {publicKey : ρ → ω} {options : Schema ω}
    {index' : Nat} {asked : ω → Option ExtensionInputs} (hcaller : InputsField caller index given)
    (hcall : call.HasField "publicKey" options .required 0 publicKey) (hfaithful : call.faithful = true)
    (hoptions : InputsField options index' asked) {text : Bytes} {c : γ} {a : ρ}
    (hread : caller.Accepts text c) (heq : asked (publicKey a) = given c) :
    ∃ item, caller.ItemFor text c "extensions" index item ∧ CarriedToCall item (call.toJson a) := by
  obtain ⟨item, hitem, hgiven⟩ := hcaller.hasField.exists_item rfl hread
  obtain ⟨outer, houter, hpublicKey⟩ := hcall.onlyNamed_toJson hfaithful a
  obtain ⟨inner, hinner, hextensions⟩ :=
    hoptions.hasField.filter_toJson_nullable hoptions.faithful (publicKey a)
  rw [heq] at hextensions
  refine ⟨item, hitem, _, oneMember_of_given (fun _ _ => inputs_of_stands) hgiven, ?_⟩
  exact ⟨outer, inner, houter, hpublicKey.trans (congrArg some hinner), hextensions⟩

theorem hasField_requestPublicKey :
    RequestCall.schema.HasField "publicKey" RequestOptions.schema .required 0
      RequestCall.publicKey :=
  ⟨_, _, _, _, _, rfl, .here, fun _ => rfl⟩

theorem extensions_of_negotiateCreation {caller : CallerCreation} {server : ServerOptions}
    {call : CreationCall} (h : negotiateCreation caller server = some call) :
    call.publicKey.extensions = caller.extensions := by
  obtain ⟨user, -, rfl⟩ := Option.map_eq_some_iff.1 h
  rfl

/-- The extensions of a caller fit the call that they are negotiated into. -/
theorem CreationCall.fits {call : CreationCall}
    (h : ∀ e ∈ call.publicKey.extensions, extensionInputsSchema.Fits e) :
    CreationCall.schema.Fits call :=
  ⟨InputsField.creation.fits h, trivial⟩

theorem RequestCall.fits {call : RequestCall}
    (h : ∀ e ∈ call.publicKey.extensions, extensionInputsSchema.Fits e) :
    RequestCall.schema.Fits call :=
  ⟨InputsField.request.fits h, trivial⟩

/-! ## Submissions -/

/-- The outputs in a credential are sent as this object, which is empty if there are none. -/
inductive Sent : Option Bytes → Json → Prop where
  | absent : Sent none (.object [])
  | given {item : Bytes} {json : Json} : CarriedObject Reduced item json → Sent (some item) json

theorem hasField_outputs : assertedCredentialSchema.HasField "clientExtensionResults"
    extensionOutputsSchema (.defaulted default) 5 Credential.extensionOutputs :=
  ⟨_, _, _, _, _, rfl, .there (by simp) (.there (by simp) (.there (by simp) (.there (by simp)
    (.there (by simp) .here)))), fun _ => rfl⟩

/-- The outputs in a credential are sent as they were read. -/
theorem sent_of_given {item : Option Bytes} {e : ExtensionOutputs}
    (h : (Presence.defaulted default).Given extensionOutputsSchema.Stands item e) :
    Sent item (extensionOutputsSchema.toJson e) := by
  cases item with
  | none =>
    obtain rfl := Option.some.inj h
    exact .absent
  | some item => exact .given (outputs_of_stands h)

/-- The last field of a submission has the outputs of the extensions. -/
theorem getLast?_encode (parameters : Parameters) (credential : AssertedCredential)
    (username : Option String) : (Submission.encode parameters credential username).fields.getLast? =
      some (Submission.fieldName parameters "clientExtensionsJSON",
        extensionOutputsSchema.text credential.extensionOutputs) := by
  cases username <;> rfl

/-! ## The whole way -/

/-- Extension inputs and outputs that are read in either way are written as the object that is carried
through, and there is only one; the outputs with what is reported of `credProps`. The inputs at the
item for them in the options of a caller are written like that in the call, whatever the server says,
and the outputs in a credential in the last field of the submission. If they hold no double, all this
is written as text that spells it. -/
theorem carried_through :
    Relator.RightUnique (CarriedObject Unchanged) ∧ Relator.RightUnique (CarriedObject Reduced) ∧
    (∀ text e, extensionInputsSchema.Accepts text e →
      CarriedObject Unchanged text (extensionInputsSchema.toJson e) ∧
        (e.Integral → (extensionInputsSchema.toJson e).Fills
          (utf8 (extensionInputsSchema.text e)))) ∧
    (∀ text e, extensionOutputsSchema.Accepts text e →
      CarriedObject Reduced text (extensionOutputsSchema.toJson e) ∧
        (e.Integral → (extensionOutputsSchema.toJson e).Fills
          (utf8 (extensionOutputsSchema.text e)))) ∧
    (∀ text caller server call, CallerCreation.schema.Accepts text caller →
      negotiateCreation caller server = some call →
        (∃ item, CallerCreation.schema.ItemFor text caller "extensions" 8 item ∧
          CarriedToCall item (CreationCall.schema.toJson call)) ∧
        ((∀ e ∈ caller.extensions, e.Integral) → (CreationCall.schema.toJson call).Fills
          (utf8 (CreationCall.schema.text call)))) ∧
    (∀ text caller server, CallerRequest.schema.Accepts text caller →
      (∃ item, CallerRequest.schema.ItemFor text caller "extensions" 5 item ∧
        CarriedToCall item (RequestCall.schema.toJson (negotiateRequest caller server))) ∧
      ((∀ e ∈ caller.extensions, e.Integral) →
        (RequestCall.schema.toJson (negotiateRequest caller server)).Fills
          (utf8 (RequestCall.schema.text (negotiateRequest caller server))))) ∧
    ∀ text credential parameters username, assertedCredentialSchema.Accepts text credential →
      ∃ item json,
        assertedCredentialSchema.ItemFor text credential "clientExtensionResults" 5 item ∧
        Sent item json ∧
        (Submission.encode parameters credential username).fields.getLast? =
          some (Submission.fieldName parameters "clientExtensionsJSON", json.text) ∧
        (credential.extensionOutputs.Integral → json.Fills (utf8 json.text)) := by
  refine ⟨carriedObject_rightUnique unchanged_rightUnique,
    carriedObject_rightUnique reduced_rightUnique, ?_, ?_, ?_, ?_, ?_⟩
  · intro text e hread
    refine ⟨inputs_of_stands (hread.stands rfl), fun hintegral => ?_⟩
    have hobtained : extensionInputsSchema.Obtained e := ⟨text, hread⟩
    exact Schema.fills_of_drawn extensionInputs_lawful (hobtained.drawn extensionInputs_lawful)
      (extensionInputs_integral hintegral)
  · intro text e hread
    refine ⟨outputs_of_stands (hread.stands rfl), fun hintegral => ?_⟩
    have hobtained : extensionOutputsSchema.Obtained e := ⟨text, hread⟩
    exact Schema.fills_of_drawn extensionOutputs_lawful (hobtained.drawn extensionOutputs_lawful)
      (extensionOutputs_integral hintegral)
  · intro text caller server call hread hcall
    have hextensions := extensions_of_negotiateCreation hcall
    refine ⟨carriedToCall .callerCreation CreationCall.hasField_publicKey rfl .creation hread
      hextensions, fun hintegral => ?_⟩
    have hfits := InputsField.callerCreation.fits_of_accepts hread hintegral
    rw [← hextensions] at hfits
    exact (Schema.whole_toJson _ call (CreationCall.fits hfits)).fills
  · intro text caller server hread
    refine ⟨carriedToCall .callerRequest hasField_requestPublicKey rfl .request hread rfl,
      fun hintegral => ?_⟩
    have hfits := InputsField.callerRequest.fits_of_accepts hread hintegral
    exact (Schema.whole_toJson _ _ (RequestCall.fits hfits)).fills
  · intro text credential parameters username hread
    have hobtained : assertedCredentialSchema.Obtained credential := ⟨text, hread⟩
    obtain ⟨item, hitem, hgiven⟩ := hasField_outputs.exists_item rfl hread
    refine ⟨item, _, hitem, sent_of_given hgiven, getLast?_encode parameters credential username,
      fun hintegral => ?_⟩
    have hdrawn := Credential.drawn_extensionOutputs (hobtained.drawn (Credential.lawful rfl))
    exact Schema.fills_of_drawn extensionOutputs_lawful hdrawn (extensionOutputs_integral hintegral)

/-- A member that is given twice keeps its first place and its last value, at every depth, and
`credProps` comes to the front: on its own, in the calls and in the submission. -/
theorem carried_through_of_repeats :
    ∃ (inputs : Bytes) (e : ExtensionInputs) (json : Json) (document : Bytes)
      (caller : CallerCreation) (server : ServerOptions) (call : CreationCall)
      (request : CallerRequest) (sent : Bytes) (credential : AssertedCredential),
      inputs = utf8 ("\x7b\"b\":1,\"a\":\x7b\"x\":\"y\",\"y\":[2],\"x\":\"z\"\x7d," ++
        "\"credProps\":true,\"b\":[null]\x7d") ∧
      json = .object [("credProps", .bool true), ("b", .array [.null]),
        ("a", .object [("x", .string "z"), ("y", .array [.number (.integer 2)])])] ∧
      extensionInputsSchema.Accepts inputs e ∧ CarriedObject Unchanged inputs json ∧
      json.Fills (utf8 (extensionInputsSchema.text e)) ∧
      document = utf8 "\x7b\"extensions\":" ++ inputs ++ utf8 "\x7d" ∧
      CallerCreation.schema.Accepts document caller ∧ caller.extensions = some e ∧
      negotiateCreation caller server = some call ∧
      (∃ o : Outline Bytes, o.Of document ∧
        CarriedToCall (o.field? "extensions" 8) (CreationCall.schema.toJson call)) ∧
      CallerRequest.schema.Accepts document request ∧ request.extensions = some e ∧
      (∃ o : Outline Bytes, o.Of document ∧ CarriedToCall (o.field? "extensions" 5)
        (RequestCall.schema.toJson (negotiateRequest request server))) ∧
      assertedCredentialSchema.Accepts sent credential ∧
      ∃ (o : Outline Bytes) (outputs : Json), o.Of sent ∧
        Sent (o.field? "clientExtensionResults" 5) outputs ∧
        outputs.text = "\x7b\"credProps\":\x7b\"rk\":true\x7d,\"b\":2\x7d" := by
  obtain ⟨-, -, hinputs, -, hcreation, hrequest, hsubmission⟩ := carried_through
  let inputs := utf8 ("\x7b\"b\":1,\"a\":\x7b\"x\":\"y\",\"y\":[2],\"x\":\"z\"\x7d," ++
    "\"credProps\":true,\"b\":[null]\x7d")
  let e : ExtensionInputs := ⟨some true, ⟨[("b", .array [.null]),
    ("a", .object [("x", .string "z"), ("y", .array [.number (.integer 2)])])], by decide⟩⟩
  let document := utf8 "\x7b\"extensions\":" ++ inputs ++ utf8 "\x7d"
  let caller : CallerCreation := { CallerCreation.unset with extensions := some e }
  let request : CallerRequest := { CallerRequest.unset with extensions := some e }
  let server : ServerOptions :=
    ⟨⟨none, "E", none⟩, some ⟨[3], "n", "n"⟩, [0], [], none, none, [], .empty⟩
  let sent := utf8 ("\x7b\"id\":\"AQ\",\"rawId\":\"AQ\",\"type\":\"public-key\"," ++
    "\"response\":[\"Ag\",\"Aw==\",\"BA\"],\"clientExtensionResults\":" ++
    "\x7b\"b\":1,\"b\":2,\"credProps\":\x7b\"rk\":true,\"a\":3\x7d\x7d\x7d")
  let credential : AssertedCredential := ⟨"AQ", [1], .publicKey, ⟨[2], [3], [4], none⟩, none,
    ⟨some ⟨some true⟩, ⟨[("b", .number (.integer 2))], by decide⟩⟩⟩
  have hintegral : e.Integral := by
    intro member hmember
    rcases List.mem_pair.1 hmember with rfl | rfl
    · exact ⟨trivial, trivial⟩
    · exact ⟨trivial, ⟨trivial, trivial⟩, trivial⟩
  have hread : extensionInputsSchema.Accepts inputs e := .inl (by decide +kernel)
  obtain ⟨hcarried, hfills⟩ := hinputs inputs e hread
  -- the options for a creation are read directly, the others through a tree
  have hstrict : (CallerCreation.schema.readStrictly document).value? = some caller := by
    decide +kernel
  have hdirect : (CallerCreation.schema.readText document).value? = some caller := by decide +kernel
  have hcall : negotiateCreation caller server = some _ := rfl
  obtain ⟨_, hitem, hcreated⟩ := (hcreation document caller server _ (.inl hdirect) hcall).1
  obtain ⟨o₁, ho₁, rfl⟩ :=
    hitem.of_readOff (.directly hdirect (Schema.document_of_readStrictly hstrict) fun _ => hstrict)
  have hthrough : (CallerRequest.schema.readValue document).value? = some request := by
    decide +kernel
  obtain ⟨_, hitem, hrequested⟩ := (hrequest document request server (.inr hthrough)).1
  obtain ⟨o₂, ho₂, rfl⟩ := hitem.of_readOff (.throughTree hthrough)
  have hcredential : (assertedCredentialSchema.readValue sent).value? = some credential := by
    decide +kernel
  obtain ⟨_, outputs, hitem, hsent, hlast, -⟩ :=
    hsubmission sent credential .empty none (.inr hcredential)
  obtain ⟨o₃, ho₃, rfl⟩ := hitem.of_readOff (.throughTree hcredential)
  have htext : outputs.text = extensionOutputsSchema.text credential.extensionOutputs :=
    congrArg Prod.snd (Option.some.inj hlast.symm)
  exact ⟨inputs, e, _, document, caller, server, _, request, sent, credential, rfl, rfl, hread,
    hcarried, hfills hintegral, rfl, .inl hdirect, rfl, hcall, ⟨o₁, ho₁, hcreated⟩, .inr hthrough, rfl,
    ⟨o₂, ho₂, hrequested⟩, .inr hcredential, o₃, outputs, ho₃, hsent, htext.trans (by decide +kernel)⟩

end CredentialCeremony.Extensions
