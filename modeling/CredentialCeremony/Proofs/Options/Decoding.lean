import CredentialCeremony.Options.Server
import CredentialCeremony.Proofs.Binary.Base64
import Mathlib.Data.List.Forall2

set_option autoImplicit false

/-!
# Decoding served options

The binary values of served options are decoded one behind the other, up to the first that is not
loose base 64. A computation that goes along fields in this way either has met only loose texts or
names the first field whose text is not (`DecodesAlong`), and two such computations in turn go along
the fields of both (`DecodesAlong.bind`).

Main statement: served options are decoded exactly if all their binary values are loose, and else the
first that is not is named; what is decoded agrees with what was served field by field
(`ServerOptions.ofWire_names_first`).
-/

namespace CredentialCeremony

open Base64 (Loose decodeUrl?)

/-- The binary values as served, each with the path to it, in the order challenge, user, credentials.
Credentials are counted from 0. -/
def WireOptions.binaryFields (wire : WireOptions) : List (String × String) :=
  ("challenge", wire.challenge) :: (wire.user.map fun user => ("user.id", user.id)).toList ++
    wire.credentials.zipIdx.map fun (d, index) => ("credentials[" ++ toString index ++ "].id", d.id)

/-! ## What decoding gives -/

/-- The user is the one served, with the handle decoded; the name stands in for a display name that
was not served. -/
structure UserAccount.DecodedFrom (wire : WireUser) (user : UserAccount) : Prop where
  id : decodeUrl? wire.id = some user.id
  name : user.name = wire.name
  displayName : user.displayName = wire.displayName.getD wire.name

/-- The credential is the one served, with the id decoded. -/
structure CredentialDescriptor.DecodedFrom (wire : WireDescriptor) (d : CredentialDescriptor) :
    Prop where
  id : decodeUrl? wire.id = some d.id
  kind : d.kind = wire.kind
  transports : d.transports = wire.transports

/-- The options are those served, with every binary value decoded: the credentials in their order,
and all that is not binary as it was. -/
structure ServerOptions.DecodedFrom (wire : WireOptions) (s : ServerOptions) : Prop where
  challenge : decodeUrl? wire.challenge = some s.challenge
  user : Option.Rel UserAccount.DecodedFrom wire.user s.user
  credentials : List.Forall₂ CredentialDescriptor.DecodedFrom wire.credentials s.credentials
  relyingParty : s.relyingParty = wire.relyingParty
  keyParameters : s.keyParameters = wire.keyParameters
  registrationTimeout : s.registrationTimeout = wire.registrationTimeout
  authenticationTimeout : s.authenticationTimeout = wire.authenticationTimeout
  parameters : s.parameters = wire.parameters

/-! ## Decoding along fields -/

section Along

variable {α β : Type} {P : α → Prop} {Q : β → Prop}

/-- The text of a field is the first that is not loose. -/
def FirstUnreadable (fields : List (String × String)) (field : String) : Prop :=
  ∃ before text after, fields = before ++ (field, text) :: after ∧
    (∀ f ∈ before, Loose f.2) ∧ ¬ Loose text

/-- A computation decodes the texts of the fields in their order: it names the first that is not
loose, or there is none and the result has the property. -/
def DecodesAlong (fields : List (String × String)) (x : Except DecodeError α) (P : α → Prop) :
    Prop :=
  match x with
  | .ok a => (∀ f ∈ fields, Loose f.2) ∧ P a
  | .error e => FirstUnreadable fields e.field

theorem decodesAlong_ok {a : α} (h : P a) : DecodesAlong [] (.ok a) P := ⟨by simp, h⟩

/-- What comes behind a field that is not loose is not looked at. -/
theorem FirstUnreadable.append {fields : List (String × String)} {field : String}
    (h : FirstUnreadable fields field) (more : List (String × String)) :
    FirstUnreadable (fields ++ more) field := by
  obtain ⟨before, text, after, rfl, hbefore, htext⟩ := h
  refine ⟨before, text, after ++ more, ?_, hbefore, htext⟩
  rw [List.append_assoc, List.cons_append]

theorem FirstUnreadable.behind {fields more : List (String × String)} {field : String}
    (h : FirstUnreadable more field) (hfields : ∀ f ∈ fields, Loose f.2) :
    FirstUnreadable (fields ++ more) field := by
  obtain ⟨before, text, after, rfl, hbefore, htext⟩ := h
  refine ⟨fields ++ before, text, after, ?_, ?_, htext⟩
  · rw [List.append_assoc]
  · intro f hf
    rcases List.mem_append.1 hf with hf | hf
    · exact hfields f hf
    · exact hbefore f hf

/-- The first text that is not loose is found by looking for it. -/
theorem firstUnreadable_iff {fields : List (String × String)} {field : String} :
    FirstUnreadable fields field ↔
      (fields.find? fun f => ¬ Loose f.2).map Prod.fst = some field := by
  simp only [Option.map_eq_some_iff, List.find?_eq_some_iff_append, decide_eq_true_eq,
    Bool.not_eq_true', decide_eq_false_iff_not, not_not, FirstUnreadable]
  constructor
  · rintro ⟨before, text, after, rfl, hbefore, htext⟩
    exact ⟨(field, text), ⟨htext, before, after, rfl, hbefore⟩, rfl⟩
  · rintro ⟨⟨_, text⟩, ⟨htext, before, after, hfields, hbefore⟩, rfl⟩
    exact ⟨before, text, after, hfields, hbefore, htext⟩

theorem FirstUnreadable.unique {fields : List (String × String)} {field other : String}
    (h : FirstUnreadable fields field) (hother : FirstUnreadable fields other) :
    field = other := by
  rw [firstUnreadable_iff] at h hother
  exact Option.some_inj.1 (h.symm.trans hother)

/-- Two computations in turn go along the fields of both. -/
theorem DecodesAlong.bind {fields more : List (String × String)} {x : Except DecodeError α}
    {f : α → Except DecodeError β} (hx : DecodesAlong fields x P)
    (hf : ∀ a, P a → DecodesAlong more (f a) Q) : DecodesAlong (fields ++ more) (x >>= f) Q := by
  cases x with
  | error e => exact hx.append more
  | ok a =>
    obtain ⟨hfields, ha⟩ := hx
    have hmore := hf a ha
    change DecodesAlong (fields ++ more) (f a) Q
    cases hb : f a with
    | error e =>
      rw [hb] at hmore
      exact hmore.behind hfields
    | ok b =>
      rw [hb] at hmore
      refine ⟨?_, hmore.2⟩
      intro g hg
      rcases List.mem_append.1 hg with hg | hg
      · exact hfields g hg
      · exact hmore.1 g hg

theorem DecodesAlong.map {fields : List (String × String)} {x : Except DecodeError α}
    (hx : DecodesAlong fields x P) {f : α → β} (hf : ∀ a, P a → Q (f a)) :
    DecodesAlong fields (x.map f) Q := by
  cases x with
  | error e => exact hx
  | ok a => exact ⟨hx.1, hf a hx.2⟩

/-- It fails exactly if some text is not loose. -/
theorem DecodesAlong.exists_error_iff {fields : List (String × String)}
    {x : Except DecodeError α} (hx : DecodesAlong fields x P) :
    (∃ e, x = .error e) ↔ ∃ f ∈ fields, ¬ Loose f.2 := by
  cases x with
  | ok a =>
    apply iff_of_false
    · rintro ⟨e, he⟩
      cases he
    · rintro ⟨f, hf, hloose⟩
      exact hloose (hx.1 f hf)
  | error e =>
    obtain ⟨before, text, after, rfl, -, htext⟩ := hx
    refine iff_of_true ⟨e, rfl⟩ ⟨(e.field, text), ?_, htext⟩
    exact List.mem_append_right _ List.mem_cons_self

/-- It fails with the first text that is not loose, and with no other. -/
theorem DecodesAlong.eq_error_iff {fields : List (String × String)} {x : Except DecodeError α}
    (hx : DecodesAlong fields x P) {e : DecodeError} :
    x = .error e ↔ FirstUnreadable fields e.field := by
  cases x with
  | ok a =>
    apply iff_of_false
    · rintro ⟨⟩
    · rintro ⟨before, text, after, rfl, -, htext⟩
      exact htext (hx.1 (e.field, text) (List.mem_append_right _ List.mem_cons_self))
  | error cause =>
    constructor
    · rintro ⟨⟩
      exact hx
    · intro hfirst
      have hfield : cause.field = e.field := FirstUnreadable.unique hx hfirst
      rw [show cause = e from congrArg DecodeError.mk hfield]

end Along

/-! ## The fields of served options -/

theorem decodeField_along (field text : String) :
    DecodesAlong [(field, text)] (decodeField field text) fun bytes =>
      decodeUrl? text = some bytes := by
  unfold decodeField
  cases hdecode : decodeUrl? text with
  | some bytes =>
    have hloose : Loose text := Base64.isSome_decodeUrl?_iff.1 (by rw [hdecode]; rfl)
    exact ⟨by simpa using hloose, rfl⟩
  | none =>
    refine ⟨[], text, [], rfl, by simp, ?_⟩
    intro hloose
    have hsome := Base64.isSome_decodeUrl?_iff.2 hloose
    rw [hdecode] at hsome
    cases hsome

theorem decodeUser_along (user : Option WireUser) :
    DecodesAlong (user.map fun u => ("user.id", u.id)).toList (decodeUser user)
      (Option.Rel UserAccount.DecodedFrom user) := by
  cases user with
  | none => exact decodesAlong_ok .none
  | some u =>
    have hid := (decodeField_along "user.id" u.id).map
      (f := fun id => (⟨id, u.displayName.getD u.name, u.name⟩ : UserAccount))
      (Q := UserAccount.DecodedFrom u) fun id hid => ⟨hid, rfl, rfl⟩
    exact hid.map fun user huser => .some huser

/-- The ids of credentials are decoded in order, each under the number of its place. -/
theorem decodeDescriptors_along (index : Nat) (ds : List WireDescriptor) :
    DecodesAlong
      ((ds.zipIdx index).map fun (d, i) => ("credentials[" ++ toString i ++ "].id", d.id))
      (decodeDescriptors index ds) (List.Forall₂ CredentialDescriptor.DecodedFrom ds) := by
  induction ds generalizing index with
  | nil => exact decodesAlong_ok .nil
  | cons d ds ih =>
    rw [List.zipIdx_cons, List.map_cons, ← List.singleton_append, decodeDescriptors]
    refine (decodeField_along _ _).bind fun id hid => ?_
    exact (ih (index + 1)).map fun others hothers => .cons ⟨hid, rfl, rfl⟩ hothers

/-- Served options are decoded along their binary values. -/
theorem ServerOptions.ofWire_along (wire : WireOptions) :
    DecodesAlong wire.binaryFields (ServerOptions.ofWire wire)
      (ServerOptions.DecodedFrom wire) := by
  rw [WireOptions.binaryFields, List.cons_append, ← List.singleton_append]
  refine (decodeField_along _ _).bind fun challenge hchallenge => ?_
  refine (decodeUser_along _).bind fun user huser => ?_
  refine (decodeDescriptors_along 0 _).map fun credentials hcredentials => ?_
  exact ⟨hchallenge, huser, hcredentials, rfl, rfl, rfl, rfl, rfl⟩

/-- Served options are refused exactly if one of their binary values is not loose base 64, and the
first such value in the order challenge, user, credentials is named; else every binary value is
decoded and everything beside them stays as it was served. -/
theorem ServerOptions.ofWire_names_first (wire : WireOptions) :
    ((∃ e, ServerOptions.ofWire wire = .error e) ↔ ∃ f ∈ wire.binaryFields, ¬ Loose f.2) ∧
    (∀ e, ServerOptions.ofWire wire = .error e → FirstUnreadable wire.binaryFields e.field) ∧
    (∀ s, ServerOptions.ofWire wire = .ok s → ServerOptions.DecodedFrom wire s) := by
  have halong := ServerOptions.ofWire_along wire
  refine ⟨halong.exists_error_iff, ?_, ?_⟩
  · intro e he
    rw [he] at halong
    exact halong
  · intro s hs
    rw [hs] at halong
    exact halong.2

/-- The second of three credentials is named, though the third cannot be decoded either. -/
example : (ServerOptions.ofWire
    { relyingParty := ⟨none, "", none⟩, user := none, challenge := "AAEC", keyParameters := []
      registrationTimeout := none, authenticationTimeout := none
      credentials := [⟨.publicKey, "AQ==", none⟩, ⟨.publicKey, "A", none⟩, ⟨.publicKey, "+", none⟩]
      parameters := .empty }) = .error ⟨"credentials[1].id"⟩ := by
  decide +kernel

end CredentialCeremony
