import CredentialCeremony.Negotiation
import CredentialCeremony.Proofs.Options.Decoding
import CredentialCeremony.Proofs.Options.KeyParameters

set_option autoImplicit false

/-!
# Negotiated options

What a ceremony asks for in the end. The acceptable keys of a registration are those of the caller,
if it sets any, or else those of the server, and an empty list is never asked for.

Main statement: the readable entries in the document of a server reach the platform as they are
(`negotiated_keys_of_document`), unless a direct reader goes astray in the document
(`negotiated_keys_of_illegible`).
-/

namespace CredentialCeremony

open Grammar

/-! ## Presets for an empty list -/

namespace KeyParameters

variable {keys : List KeyParameters}

theorem presets_ne_nil : presets ≠ [] := by simp [presets]

theorem orPresets_of_ne_nil (h : keys ≠ []) : orPresets keys = keys := by
  rw [orPresets, if_neg (by simpa using h)]

theorem orPresets_ne_nil (keys : List KeyParameters) : orPresets keys ≠ [] := by
  by_cases h : keys = []
  · subst h
    exact presets_ne_nil
  · rw [orPresets_of_ne_nil h]
    exact h

/-- The presets are asked for if nothing else is, or if just they are listed. -/
theorem orPresets_eq_presets_iff : orPresets keys = presets ↔ keys = [] ∨ keys = presets := by
  by_cases h : keys = []
  · subst h
    exact iff_of_true rfl (.inl rfl)
  · rw [orPresets_of_ne_nil h, or_iff_right h]

end KeyParameters

/-! ## The keys of a registration -/

variable {caller : CallerCreation} {server : ServerOptions} {call : CreationCall}

theorem keyParameters_of_negotiateCreation (h : negotiateCreation caller server = some call) :
    call.publicKey.keyParameters =
      KeyParameters.orPresets (caller.keyParameters.getD server.keyParameters) := by
  obtain ⟨user, -, rfl⟩ := Option.map_eq_some_iff.1 h
  rfl

/-- The argument of the call is written with these entries for the acceptable keys. -/
def CreationCall.WritesKeys (call : CreationCall) (entries : List Json) : Prop :=
  ∃ outer inner, CreationCall.schema.toJson call = .object outer ∧
    onlyNamed "publicKey" outer = some (.object inner) ∧
      onlyNamed "pubKeyCredParams" inner = some (.array entries)

theorem CreationCall.hasField_publicKey :
    CreationCall.schema.HasField "publicKey" CreationOptions.schema .required 0
      CreationCall.publicKey :=
  ⟨_, _, _, _, _, rfl, .here, fun _ => rfl⟩

theorem CreationOptions.hasField_keyParameters :
    CreationOptions.schema.HasField "pubKeyCredParams" (.list KeyParameters.schema) .required 3
      CreationOptions.keyParameters :=
  ⟨_, _, _, _, _, rfl, .there (by simp) (.there (by simp) (.there (by simp) .here)), fun _ => rfl⟩

theorem CreationCall.writesKeys (call : CreationCall) :
    call.WritesKeys (call.publicKey.keyParameters.map KeyParameters.entry) := by
  obtain ⟨outer, houter, hpublicKey⟩ := CreationCall.hasField_publicKey.onlyNamed_toJson rfl call
  obtain ⟨inner, hinner, hkeys⟩ :=
    CreationOptions.hasField_keyParameters.onlyNamed_toJson rfl call.publicKey
  refine ⟨outer, inner, houter, hpublicKey.trans (congrArg some hinner), hkeys.trans ?_⟩
  have hentries : KeyParameters.schema.toJson = KeyParameters.entry :=
    funext KeyParameters.toJson_eq_entry
  simp [Presence.omits, Schema.toJson, hentries]

/-- What a registration asks for where the server lists these keys. -/
structure NegotiatedKeys (caller : CallerCreation) (served : List KeyParameters)
    (call : CreationCall) : Prop where
  /-- The keys of the server are asked for as they are. -/
  of_server : caller.keyParameters = none → served ≠ [] → call.publicKey.keyParameters = served
  /-- The presets are asked for if the server lists none, or just these. -/
  presets_iff : caller.keyParameters = none →
    (call.publicKey.keyParameters = KeyParameters.presets ↔
      served = [] ∨ served = KeyParameters.presets)
  /-- The keys of the caller are asked for as they are, whatever the server lists. -/
  of_caller : ∀ keys, caller.keyParameters = some keys → keys ≠ [] →
    call.publicKey.keyParameters = keys
  /-- The presets stand in for an empty list of the caller. -/
  of_empty : caller.keyParameters = some [] → call.publicKey.keyParameters = KeyParameters.presets
  ne_nil : call.publicKey.keyParameters ≠ []
  /-- Each key is written as one entry, in order. -/
  written : call.WritesKeys (call.publicKey.keyParameters.map KeyParameters.entry)

/-- The readable entries of the list in the document of a server, in their order and with their
numbers, are what a registration asks the platform for, unless the caller sets a list of its own.
The presets take the place of an empty list only. -/
theorem negotiated_keys_of_document {text : Bytes} {wire : WireOptions} {seen : Json → Json}
    (hread : WireOptions.ReadAs text wire seen) (hdecode : ServerOptions.ofWire wire = .ok server)
    (hcall : negotiateCreation caller server = some call) :
    (∃ (document : Outline Bytes) (served : List KeyParameters), document.Of text ∧
      KeyParameters.Listed seen document served) ∧
    ∀ (document : Outline Bytes) (served : List KeyParameters), document.Of text →
      KeyParameters.Listed seen document served → NegotiatedKeys caller served call := by
  obtain ⟨document, hdocument, hlisted⟩ := hread.listed
  refine ⟨⟨document, wire.keyParameters, hdocument, hlisted⟩, ?_⟩
  intro document' served hof hserved
  -- a text has one outline, and that lists one sequence of keys
  obtain rfl := hdocument.unique hof
  obtain rfl := hlisted.unique hserved
  have hdecoded : server.keyParameters = wire.keyParameters := by
    have halong := ServerOptions.ofWire_along wire
    rw [hdecode] at halong
    exact halong.2.keyParameters
  have hkeys := keyParameters_of_negotiateCreation hcall
  rw [hdecoded] at hkeys
  refine ⟨?_, ?_, ?_, ?_, ?_, call.writesKeys⟩
  · intro hnone hne
    rw [hkeys, hnone, Option.getD_none, KeyParameters.orPresets_of_ne_nil hne]
  · intro hnone
    rw [hkeys, hnone, Option.getD_none, KeyParameters.orPresets_eq_presets_iff]
  · intro keys hsome hne
    rw [hkeys, hsome, Option.getD_some, KeyParameters.orPresets_of_ne_nil hne]
  · intro hempty
    rw [hkeys, hempty]
    rfl
  · rw [hkeys]
    exact KeyParameters.orPresets_ne_nil _

/-- An algorithm that is not registered is asked for like any other, as often as it is listed; a
type that is no name is an unknown one, and what has no algorithm is dropped. -/
theorem negotiated_keys_of_unregistered :
    ∃ (text : Bytes) (call : CreationCall) (document : Outline Bytes) (served : List KeyParameters),
      document.Of text ∧ KeyParameters.Listed id document served ∧
        NegotiatedKeys .unset served call ∧ call.publicKey.keyParameters =
          [⟨.publicKey, -65535000⟩, ⟨.unknown, 9223372036854775807⟩, ⟨.publicKey, -65535000⟩] := by
  have hread : WireOptions.ReadAs
      (utf8 ("\x7b\"relyingParty\":\x7b\"name\":\"E\"\x7d," ++
        "\"user\":\x7b\"id\":\"AQ\",\"name\":\"n\"\x7d,\"challenge\":\"AAEC\"," ++
        "\"pubKeyCredParams\":[\x7b\"type\":\"public-key\",\"alg\":-65535000\x7d," ++
        "\x7b\"alg\":-7\x7d,[7,9223372036854775807],null," ++
        "\x7b\"type\":\"public-key\",\"alg\":-65535000\x7d]\x7d"))
      ⟨⟨none, "E", none⟩, some ⟨"AQ", "n", none⟩, "AAEC",
        [⟨.publicKey, -65535000⟩, ⟨.unknown, 9223372036854775807⟩, ⟨.publicKey, -65535000⟩],
        none, none, [], .empty⟩ id := by
    refine .directly ?_ ?_ fun _ => ?_
    · decide +kernel
    · decide +kernel
    · decide +kernel
  have hdecode : ServerOptions.ofWire ⟨⟨none, "E", none⟩, some ⟨"AQ", "n", none⟩, "AAEC",
      [⟨.publicKey, -65535000⟩, ⟨.unknown, 9223372036854775807⟩, ⟨.publicKey, -65535000⟩],
      none, none, [], .empty⟩ =
    .ok ⟨⟨none, "E", none⟩, some ⟨[1], "n", "n"⟩, [0, 1, 2],
      [⟨.publicKey, -65535000⟩, ⟨.unknown, 9223372036854775807⟩, ⟨.publicKey, -65535000⟩],
      none, none, [], .empty⟩ := by decide +kernel
  obtain ⟨⟨document, served, hdocument, hserved⟩, hkeys⟩ :=
    negotiated_keys_of_document hread hdecode (rfl : negotiateCreation .unset _ = _)
  exact ⟨_, _, document, served, hdocument, hserved, hkeys document served hdocument hserved, rfl⟩

/-- The presets are asked for as well where a document lists just these, though its entries are
readable and the caller sets nothing. -/
theorem presets_of_readable_entries :
    ∃ (text : Bytes) (wire : WireOptions) (server : ServerOptions) (call : CreationCall)
      (document : Outline Bytes) (served : List KeyParameters),
      WireOptions.ReadAs text wire id ∧ ServerOptions.ofWire wire = .ok server ∧
        negotiateCreation .unset server = some call ∧ document.Of text ∧
        KeyParameters.Listed id document served ∧ served ≠ [] ∧
        call.publicKey.keyParameters = KeyParameters.presets := by
  have hread : WireOptions.ReadAs
      (utf8 ("\x7b\"relyingParty\":\x7b\"name\":\"E\"\x7d," ++
        "\"user\":\x7b\"id\":\"AQ\",\"name\":\"n\"\x7d,\"challenge\":\"AAEC\"," ++
        "\"pubKeyCredParams\":[\x7b\"type\":\"public-key\",\"alg\":-7\x7d," ++
        "\x7b\"type\":\"public-key\",\"alg\":-257\x7d]\x7d"))
      ⟨⟨none, "E", none⟩, some ⟨"AQ", "n", none⟩, "AAEC", KeyParameters.presets, none, none, [],
        .empty⟩ id := by
    refine .directly ?_ ?_ fun _ => ?_
    · decide +kernel
    · decide +kernel
    · decide +kernel
  have hdecode : ServerOptions.ofWire ⟨⟨none, "E", none⟩, some ⟨"AQ", "n", none⟩, "AAEC",
      KeyParameters.presets, none, none, [], .empty⟩ =
    .ok ⟨⟨none, "E", none⟩, some ⟨[1], "n", "n"⟩, [0, 1, 2], KeyParameters.presets, none, none, [],
      .empty⟩ := by decide +kernel
  obtain ⟨document, hdocument, hlisted⟩ := hread.listed
  exact ⟨_, _, _, _, document, _, hread, hdecode, rfl, hdocument, hlisted,
    KeyParameters.presets_ne_nil, rfl⟩

/-- Served options up to the acceptable keys. What stands behind these is not read, so that nothing
there can lead astray. -/
def WireOptions.frontSchema :
    Schema (RelyingParty × Option WireUser × String × List KeyParameters × Unit) :=
  .record
    (.required "relyingParty" RelyingParty.schema <|
      .optional "user" (.nullable WireUser.schema) <|
      .required "challenge" .string <|
      .defaulted "pubKeyCredParams" (.tolerant KeyParameters.schema) [] <|
      .nil)
    { build := id, parts := id }

theorem WireOptions.hasField_front : WireOptions.frontSchema.HasField "pubKeyCredParams"
    (.tolerant KeyParameters.schema) (.defaulted []) 3 fun parts => parts.2.2.2.1 :=
  ⟨_, _, _, _, _, rfl, .there (by simp) (.there (by simp) (.there (by simp) .here)), fun _ => rfl⟩

/-- A document may ask for a key that it does not list, if no tree can hold it. Here the reader goes
on within the first timeout, which lists one, and the text in which it fails next restores the
nesting of the document. -/
theorem negotiated_keys_of_illegible :
    ∃ (text : Bytes) (wire : WireOptions) (server : ServerOptions) (call : CreationCall)
      (document : Outline Bytes),
      Document text ∧ (WireOptions.schema.readText text).value? = some wire ∧
        ServerOptions.ofWire wire = .ok server ∧ negotiateCreation .unset server = some call ∧
        document.Of text ∧ KeyParameters.Listed id document [] ∧
        call.publicKey.keyParameters = [⟨.publicKey, -37⟩] := by
  have hfront : (WireOptions.frontSchema.readStrictly
      (utf8 ("\x7b\"relyingParty\":\x7b\"name\":\"E\"\x7d," ++
        "\"user\":\x7b\"id\":\"AQ\",\"name\":\"n\"\x7d,\"challenge\":\"AAEC\"," ++
        "\"registrationTimeout\":\x7b\"a\":1e999," ++
        "\"pubKeyCredParams\":[\x7b\"type\":\"public-key\",\"alg\":-37\x7d]," ++
        "\"credentials\":[\x7b\"id\":\"AQ\",\"type\":\"\\ud800 ,\"\x7d]\x7d," ++
        "\":0,\":[[\":0\x7d,[\"\n,\"AQ\"]]\x7d"))).value? =
      some (⟨none, "E", none⟩, some ⟨"AQ", "n", none⟩, "AAEC", [], ()) := by
    decide +kernel
  obtain ⟨document, hdocument, hlisted⟩ :=
    KeyParameters.listed_of_readStrictly WireOptions.hasField_front hfront
  refine ⟨_, ⟨⟨none, "E", none⟩, some ⟨"AQ", "n", none⟩, "AAEC", [⟨.publicKey, -37⟩], none, none,
      [⟨.unknown, "AQ", none⟩, ⟨.unknown, "AQ", none⟩], .empty⟩,
    ⟨⟨none, "E", none⟩, some ⟨[1], "n", "n"⟩, [0, 1, 2], [⟨.publicKey, -37⟩], none, none,
      [⟨.unknown, [1], none⟩, ⟨.unknown, [1], none⟩], .empty⟩,
    _, document, Schema.document_of_readStrictly hfront, ?_, ?_, rfl, hdocument, hlisted, rfl⟩
  · decide +kernel
  · decide +kernel

end CredentialCeremony
