import CredentialCeremony.Options.Server
import CredentialCeremony.Proofs.Schema.Further

set_option autoImplicit false

/-!
# Decoded options read as served

The decoded options and the options as served have a document each. The two agree in the names of
the members, though not in their order, and in how a binary value is written: so what is written for
the decoded options may be served again, and is then decoded to the same options.

Main statement: the text of decoded options is read as served options that are decoded to the same
ones, and as the same ones at once (`ServerOptions.reread`).
-/

namespace CredentialCeremony

/-- A user as a server that decodes nothing would serve it. -/
def UserAccount.toWire (u : UserAccount) : WireUser :=
  ⟨Base64.encode u.id, u.name, some u.displayName⟩

/-- A registered credential as a server that decodes nothing would serve it. -/
def CredentialDescriptor.toWire (d : CredentialDescriptor) : WireDescriptor :=
  ⟨d.kind, Base64.encode d.id, d.transports⟩

/-- The options as a server that decodes nothing would serve them. -/
def ServerOptions.toWire (s : ServerOptions) : WireOptions where
  relyingParty := s.relyingParty
  user := s.user.map UserAccount.toWire
  challenge := Base64.encode s.challenge
  keyParameters := s.keyParameters
  registrationTimeout := s.registrationTimeout
  authenticationTimeout := s.authenticationTimeout
  credentials := s.credentials.map CredentialDescriptor.toWire
  parameters := s.parameters

/-! ## Decoding -/

theorem decodeField_encode (field : String) (bytes : Bytes) :
    decodeField field (Base64.encode bytes) = .ok bytes := by
  rw [decodeField, Base64.decodeUrl?_encode]

theorem UserAccount.ofWire_toWire (u : UserAccount) : UserAccount.ofWire u.toWire = .ok u := by
  unfold UserAccount.ofWire UserAccount.toWire
  rw [decodeField_encode]
  rfl

theorem decodeDescriptors_toWire (index : Nat) (ds : List CredentialDescriptor) :
    decodeDescriptors index (ds.map CredentialDescriptor.toWire) = .ok ds := by
  induction ds generalizing index with
  | nil => rfl
  | cons d ds ih =>
    rw [List.map_cons, decodeDescriptors, CredentialDescriptor.toWire, decodeField_encode, ih]
    rfl

/-- Options that are served undecoded are decoded to the same ones. -/
theorem ServerOptions.ofWire_toWire (s : ServerOptions) : ServerOptions.ofWire s.toWire = .ok s := by
  have huser : decodeUser (s.user.map UserAccount.toWire) = .ok s.user := by
    cases s.user with
    | none => rfl
    | some u =>
      rw [Option.map_some, decodeUser, UserAccount.ofWire_toWire]
      rfl
  unfold ServerOptions.ofWire ServerOptions.toWire
  rw [decodeField_encode, huser, decodeDescriptors_toWire]
  rfl

/-! ## Reading what is written for the decoded options -/

/-- The document of a user is read as the user served, though the display name comes before the
name in it. -/
theorem WireUser.reads_toJson (u : UserAccount) :
    WireUser.schema.Reads (UserAccount.schema.toJson u) u.toWire := by
  have hname : ∀ m ∈ [("displayName", Json.string u.displayName)],
      ¬ (m.1 = "name" ∨ m.1 ∈ ["username"]) := by simp
  apply Schema.reads_record
  refine Fields.hold_required ?_ ?_ ?_
  · exact ⟨rfl, rfl⟩
  · decide
  refine .inr ⟨[("displayName", .string u.displayName)], "name", .string u.name, [], rfl, .inl rfl,
    hname, ⟨rfl, rfl⟩, ?_⟩
  exact .inr ⟨[], "displayName", .string u.displayName, [], rfl, .inl rfl, by simp, ⟨rfl, rfl⟩,
    trivial⟩

/-- The document of a registered credential is read as the credential served. -/
theorem WireDescriptor.reads_toJson (d : CredentialDescriptor) :
    WireDescriptor.schema.Reads (CredentialDescriptor.schema.toJson d) d.toWire := by
  apply Schema.reads_record
  refine Fields.hold_required ?_ ?_ (Fields.hold_required ?_ ?_ (Fields.hold_cons ?_ ?_ ?_ ?_))
  · exact Schema.reads_toJson _ rfl _ trivial
  · decide
  · exact ⟨rfl, rfl⟩
  · decide
  · exact Presence.absent?_of_omits
  · intro _
    exact Schema.reads_toJson _ rfl _ (Schema.fits_of_closed _ rfl _)
  · decide
  · trivial

/-- A user that may be missing is read as served. -/
theorem WireUser.nullable_reads_toJson (user : Option UserAccount) :
    (Schema.nullable WireUser.schema).Reads ((Schema.nullable UserAccount.schema).toJson user)
      (user.map UserAccount.toWire) := by
  cases user with
  | none => exact ⟨rfl, rfl⟩
  | some u => exact (WireUser.reads_toJson u).nullable (Schema.toJson_ne_null rfl u)

/-- A whole number of milliseconds is read as the timeout it is. -/
theorem timeout_reads_toJson (millis : Option UInt32) :
    Schema.timeout.Reads ((Schema.nullable .word).toJson millis) millis := by
  cases millis with
  | none => exact ⟨rfl, rfl⟩
  | some n => exact ⟨Extractor.timeout_toNat n, rfl⟩

/-- The tolerant list of keys drops none of those that are written. -/
theorem keyParameters_reads_toJson (keys : List KeyParameters) :
    (Schema.tolerant KeyParameters.schema).Reads ((Schema.list KeyParameters.schema).toJson keys)
      keys :=
  (Schema.tolerant KeyParameters.schema).reads_toJson rfl keys (Schema.fits_of_closed _ rfl keys)

/-- The document of the decoded options is read as the options served. -/
theorem WireOptions.reads_toJson (s : ServerOptions) :
    WireOptions.schema.Reads (ServerOptions.schema.toJson s) s.toWire := by
  apply Schema.reads_record
  refine Fields.hold_required ?_ (by decide) ?_
  · exact RelyingParty.schema.reads_toJson rfl _ (Schema.fits_of_closed _ rfl _)
  refine Fields.hold_cons ?_ (fun _ => WireUser.nullable_reads_toJson s.user) (by decide) ?_
  · intro homitted
    rw [Presence.omits, Option.isNone_iff_eq_none] at homitted
    rw [ServerOptions.toWire, homitted]
    rfl
  apply Fields.hold_required ⟨rfl, rfl⟩ (by decide)
  apply Fields.hold_required (keyParameters_reads_toJson s.keyParameters) (by decide)
  refine Fields.hold_cons Presence.absent?_of_omits
    (fun _ => timeout_reads_toJson s.registrationTimeout) (by decide) ?_
  refine Fields.hold_cons Presence.absent?_of_omits
    (fun _ => timeout_reads_toJson s.authenticationTimeout) (by decide) ?_
  refine Fields.hold_cons ?_ (fun _ => ?_) (by decide) ?_
  · intro homitted
    cases homitted
  · exact Schema.reads_list fun d _ => WireDescriptor.reads_toJson d
  refine Fields.hold_cons ?_ (fun _ => Schema.reads_dictionary s.parameters) (by decide) trivial
  intro homitted
  cases homitted

/-- Served or not, the document is the tree of its text, and repeats no name. -/
theorem ServerOptions.isTreeOf_text (s : ServerOptions) :
    (ServerOptions.schema.toJson s).IsTreeOf (utf8 (ServerOptions.schema.text s)) := by
  have hfits : ServerOptions.schema.Fits s := Schema.fits_of_closed _ rfl s
  have hdepth : (ServerOptions.schema.toJson s).depth ≤ ServerOptions.schema.height :=
    Schema.depth_toJson_le_height rfl s
  exact Schema.isTreeOf_text hfits (Nat.le_trans hdepth (by decide))

/-- The text of decoded options is read as served options, directly and through a tree, without a
warning; these are decoded to the same options, and the text is read as the same options at once. -/
theorem ServerOptions.reread (s : ServerOptions) :
    let text := utf8 (ServerOptions.schema.text s)
    (∃ wire, WireOptions.schema.readText text = ⟨.ok wire, []⟩ ∧
      WireOptions.schema.readValue text = ⟨.ok wire, []⟩ ∧ ServerOptions.ofWire wire = .ok s) ∧
    ServerOptions.schema.readText text = ⟨.ok s, []⟩ ∧
    ServerOptions.schema.readValue text = ⟨.ok s, []⟩ := by
  intro text
  have hfits : ServerOptions.schema.Fits s := Schema.fits_of_closed _ rfl s
  have htree := ServerOptions.isTreeOf_text s
  have hdistinct : (ServerOptions.schema.toJson s).Distinct :=
    ServerOptions.schema.distinct_toJson rfl s hfits
  have hwire := WireOptions.reads_toJson s
  have hself := ServerOptions.schema.reads_toJson rfl s hfits
  refine ⟨⟨s.toWire, ?_, ?_, ServerOptions.ofWire_toWire s⟩, ?_, ?_⟩
  · exact hwire.readText htree
  · exact hwire.readValue htree hdistinct
  · exact hself.readText htree
  · exact hself.readValue htree hdistinct

end CredentialCeremony
