import CredentialCeremony.Options.Server
import CredentialCeremony.Proofs.Json.Kept
import CredentialCeremony.Proofs.Schema.Frame
import CredentialCeremony.Proofs.Schema.Standing

set_option autoImplicit false

/-!
# Parameters

The parameters are an object of strings in which names may be repeated. A name keeps the place of
its first member and takes the value of its last one, and it does not matter where the repeats are
resolved: in the map while the members are read, or in the tree before. The map is written in its
order, and it reaches the decoded options as it was read off the document.

Main statement: `parameters_kept`.
-/

namespace CredentialCeremony

/-- Members that have strings for values. -/
def stringMembers (members : List (String × String)) : List (String × Json) :=
  members.map fun member => (member.1, .string member.2)

variable {members : List (String × String)} {d d' : Dictionary String} {text : Bytes}

/-! ## Trees -/

theorem resolveMembers_stringMembers (members : List (String × String)) :
    Json.resolveMembers (stringMembers members) = stringMembers members := by
  rw [Json.resolveMembers_eq_map, stringMembers, List.map_map]
  rfl

/-- To resolve the repeats of an object of strings is to make a map of its members. -/
theorem resolve_stringMembers (members : List (String × String)) :
    (Json.object (stringMembers members)).resolve =
      .object (stringMembers (Dictionary.ofList members).entries) := by
  have hentries := (lastOfEach_iff.2 (Eq.refl (Dictionary.ofList members).entries)).map Json.string
  rw [Json.resolve, resolveMembers_stringMembers, Json.object.injEq]
  exact (lastOfEach_iff.1 hentries).symm

theorem isTreeOf_of_fills (h : (Json.object (stringMembers members)).Fills text) :
    (Json.object (stringMembers members)).IsTreeOf text := by
  have hdepth : Json.membersDepth (stringMembers members) ≤ 0 := by
    rw [Json.membersDepth_le_iff, stringMembers, List.forall_mem_map]
    exact fun member _ => Nat.le_refl 0
  refine ⟨h, ?_⟩
  rw [Json.depth]
  exact Nat.le_trans (Nat.succ_le_succ hdepth) (by decide)

/-- Strings are taken into the map one after the other. -/
theorem extract_stringMembers (members : List (String × String)) :
    Schema.dictionary.extract (.object (stringMembers members)) = pure (.ofList members) :=
  Extractor.strings_map members .empty

theorem extract_resolve_stringMembers (members : List (String × String)) :
    Schema.dictionary.extract (Json.object (stringMembers members)).resolve =
      pure (.ofList members) := by
  rw [resolve_stringMembers, extract_stringMembers, Dictionary.ofList_entries]

/-- What is taken into a map are strings. -/
theorem exists_of_strings_eq_ok {given : List (String × Json)} {w w' : List TimeoutWarning}
    (h : Extractor.strings given d w = .ok d' w') : ∃ members, given = stringMembers members ∧
      d' = members.foldl (fun d member => d.insert member.1 member.2) d := by
  induction given generalizing d w with
  | nil =>
    obtain ⟨rfl, -⟩ := pure_eq_ok_iff.1 h
    exact ⟨[], rfl, rfl⟩
  | cons member given ih =>
    obtain ⟨name, json⟩ := member
    rw [Extractor.strings] at h
    obtain ⟨value, w₁, hvalue, h⟩ := bind_eq_ok_iff.1 h
    obtain ⟨rfl, -⟩ := Reader.extractor_string_eq_ok_iff.1 hvalue
    obtain ⟨members, rfl, rfl⟩ := ih h
    exact ⟨(name, value) :: members, rfl, rfl⟩

/-- A map is taken out of an object of strings only. -/
theorem exists_of_dictionary_eq_ok {json : Json} {w w' : List TimeoutWarning}
    (h : Schema.dictionary.extract json w = .ok d w') :
    ∃ members, json = .object (stringMembers members) ∧ d = .ofList members := by
  cases json with
  | object given =>
    obtain ⟨members, rfl, rfl⟩ := exists_of_strings_eq_ok h
    exact ⟨members, rfl, rfl⟩
  | _ => exact absurd h throw_ne_ok

/-! ## The map by itself -/

/-- Both ways of reading make the same map. -/
theorem dictionary_readings (h : (Json.object (stringMembers members)).Fills text) :
    Schema.dictionary.readText text = ⟨.ok (.ofList members), []⟩ ∧
      Schema.dictionary.readValue text = ⟨.ok (.ofList members), []⟩ := by
  have htree := isTreeOf_of_fills h
  constructor
  · apply (Schema.readText_eq_ok_iff htree).2
    refine ⟨rfl, ?_⟩
    rw [extract_stringMembers]
    rfl
  · apply Schema.readValue_of_extract htree
    rw [extract_resolve_stringMembers]
    rfl

/-- The map is written in its order. -/
theorem fills_dictionary_text (d : Dictionary String) :
    (Json.object (stringMembers d.entries)).Fills (utf8 (Schema.dictionary.text d)) :=
  (Schema.dictionary.whole_toJson d trivial).fills

theorem dictionary_rereads (d : Dictionary String) : Schema.dictionary.Rereads d := by
  obtain ⟨hdirect, hthrough⟩ := dictionary_readings (fills_dictionary_text d)
  rw [Dictionary.ofList_entries] at hdirect hthrough
  exact .of_reading hdirect hthrough

/-! ## The map in a document -/

/-- What resolves to a string is that string. -/
theorem eq_string_of_resolve {json : Json} {value : String} (h : json.resolve = .string value) :
    json = .string value := by
  cases json with
  | string => exact h
  | _ => cases h

/-- If the members of an object are strings once they are resolved, the last ones of each name are
strings before. -/
theorem lastOfEach_of_resolve {given : List (String × Json)}
    (h : (Json.object given).resolve = .object (stringMembers members)) :
    LastOfEach given (stringMembers (Dictionary.ofList members).entries) := by
  rw [Json.resolve, Json.resolveMembers_eq_map, Json.object.injEq] at h
  obtain ⟨hnames, hvalues⟩ := lastOfEach_iff.2 h.symm
  have hdistinct : (members.map Prod.fst).Nodup := by
    have hnodup := Dictionary.nodup (.ofList (given.map fun member => (member.1, member.2.resolve)))
    rw [h, stringMembers, List.map_map] at hnodup
    exact hnodup
  rw [Dictionary.entries_ofList hdistinct]
  constructor
  · rw [hnames, List.map_map]
    rfl
  · intro name json hmem
    obtain ⟨member, hmember, hsame⟩ := List.mem_map.1 hmem
    cases hsame
    have hlast := hvalues _ _ hmem
    rw [lastNamed_map, Option.map_eq_some_iff] at hlast
    obtain ⟨json, hlast, hresolve⟩ := hlast
    rw [hlast, eq_string_of_resolve hresolve]

/-- Where a map stands, an object is spelled that has these entries for the last members of its
names. In a tree, repeats are resolved before the values are looked at, so the other members may
have any values there. -/
theorem Schema.Stands.dictionary {item : Bytes} (h : Schema.dictionary.Stands item d) :
    ∃ given behind, (Json.object given).Spelled item behind ∧
      LastOfEach given (stringMembers d.entries) := by
  cases h with
  | @throughTree json behind hspelled ha =>
    obtain ⟨w, hx⟩ := ((Schema.extract_logs _ json.resolve).answers_iff []).2 ha
    obtain ⟨members, hresolve, rfl⟩ := exists_of_dictionary_eq_ok hx
    cases json with
    | object given => exact ⟨given, behind, hspelled, lastOfEach_of_resolve hresolve⟩
    | _ => cases hresolve
  | directly hread =>
    obtain ⟨start, w, c', hstart, hread⟩ := hread
    obtain ⟨json, hspelled, -, hx⟩ := (Reader.dictionary_exact _ _ _ _ _).1 hread
    rw [← extract_dictionary] at hx
    obtain ⟨members, rfl, rfl⟩ := exists_of_dictionary_eq_ok hx
    refine ⟨_, c'.rest, (Json.spelled_congr hstart).1 hspelled, ?_⟩
    exact (lastOfEach_iff.2 rfl).map Json.string

/-- The parameters that a document states: none without an item for them, and else the object that
is spelled there. -/
inductive StatedParameters : Option Bytes → Parameters → Prop where
  | absent : StatedParameters none .empty
  | given {item behind : Bytes} {members : List (String × Json)} {d : Parameters} :
      (Json.object members).Spelled item behind → LastOfEach members (stringMembers d.entries) →
      StatedParameters (some item) d

theorem WireOptions.hasField_parameters :
    schema.HasField "parameters" .dictionary (.defaulted .empty) 7 parameters :=
  ⟨_, _, _, _, _, rfl, .there (by simp) (.there (by simp) (.there (by simp) (.there (by simp)
    (.there (by simp) (.there (by simp) (.there (by simp) .here)))))), fun _ => rfl⟩

theorem WireOptions.hasSlot_parameters :
    schema.HasSlot "parameters" .dictionary (.defaulted .empty)
      fun d wire => { wire with parameters := d } :=
  ⟨_, _, _, _, _, _, rfl, .there (by simp) (.there (by simp) (.there (by simp) (.there (by simp)
    (.there (by simp) (.there (by simp) (.there (by simp) .here)))))), fun _ _ => rfl⟩

/-- The parameters of the options are those that are stated. -/
theorem WireOptions.exists_stated {text : Bytes} {wire : WireOptions}
    (h : schema.Accepts text wire) : ∃ item, schema.ItemFor text wire "parameters" 7 item ∧
      StatedParameters item wire.parameters := by
  obtain ⟨item, hitem, hgiven⟩ := hasField_parameters.exists_item rfl h
  refine ⟨item, hitem, ?_⟩
  cases item with
  | none =>
    obtain h := Option.some.inj hgiven
    rw [← h]
    exact .absent
  | some item =>
    obtain ⟨given, behind, hspelled, hlast⟩ := Schema.Stands.dictionary hgiven
    exact .given hspelled hlast

/-- Nothing else of the options depends on the parameters. -/
theorem ServerOptions.ofWire_withParameters (wire : WireOptions) (d : Parameters) :
    ofWire { wire with parameters := d } =
      (ofWire wire).map fun s => { s with parameters := d } := by
  unfold ofWire
  dsimp only
  cases decodeField "challenge" wire.challenge with
  | error e => rfl
  | ok challenge =>
    cases decodeUser wire.user with
    | error e => rfl
    | ok user => cases decodeDescriptors 0 wire.credentials <;> rfl

theorem ServerOptions.parameters_of_ofWire {wire : WireOptions} {s : ServerOptions}
    (h : ofWire wire = .ok s) : s.parameters = wire.parameters := by
  have hsame := ofWire_withParameters wire wire.parameters
  rw [h] at hsame
  exact congrArg ServerOptions.parameters (Except.ok.inj hsame)

section Insertion

variable {front back : List (String × Json)} {short : Bytes}
  (hfront : ∀ member ∈ front, member.1 ≠ "parameters")
  (hback : ∀ member ∈ back, member.1 ≠ "parameters")
  (htext : (Json.object (front ++
    ("parameters", .object (stringMembers members)) :: back)).IsTreeOf text)
  (hshort : (Json.object (front ++ back)).IsTreeOf short)

include hfront hback htext hshort

/-- Parameters that are put into a document of options are read in their place, and everything else
is read as without them. -/
theorem WireOptions.readText_parameters :
    (schema.readText text).Adds (schema.readText short)
      (fun wire => { wire with parameters := .ofList members }) [] := by
  refine hasSlot_parameters.readText_insert rfl hfront hback htext hshort rfl fun w => ?_
  rw [extract_stringMembers, List.append_nil]
  rfl

theorem WireOptions.readValue_parameters :
    (schema.readValue text).Adds (schema.readValue short)
      (fun wire => { wire with parameters := .ofList members }) [] := by
  refine hasSlot_parameters.readValue_insert rfl hfront hback htext hshort fun w => ?_
  rw [extract_resolve_stringMembers, List.append_nil]
  rfl

end Insertion

/-- An object of strings is read, in both ways, as one map: every name once, where it stands first,
with the value that it has last. The map is written in this order and read back. Off a document of
options it reaches the decoded options as it is stated there; and if an object of strings is put
into a document of options, its map is all that changes, in the options as served and as decoded. -/
theorem parameters_kept :
    (∀ (members : List (String × String)) text,
      (Json.object (stringMembers members)).Fills text → ∃ d : Parameters,
        LastOfEach members d.entries ∧ Schema.dictionary.readText text = ⟨.ok d, []⟩ ∧
        Schema.dictionary.readValue text = ⟨.ok d, []⟩ ∧
        (Json.object (stringMembers d.entries)).Fills (utf8 (Schema.dictionary.text d)) ∧
        Schema.dictionary.Rereads d) ∧
    (∀ text wire s, WireOptions.schema.Accepts text wire → ServerOptions.ofWire wire = .ok s →
      ∃ item, WireOptions.schema.ItemFor text wire "parameters" 7 item ∧
        StatedParameters item s.parameters) ∧
    (∀ (front back : List (String × Json)) members text short,
      (∀ member ∈ front, member.1 ≠ "parameters") → (∀ member ∈ back, member.1 ≠ "parameters") →
      (Json.object (front ++
        ("parameters", .object (stringMembers members)) :: back)).IsTreeOf text →
      (Json.object (front ++ back)).IsTreeOf short → ∃ d : Parameters,
        LastOfEach members d.entries ∧
        (∀ wire' w, WireOptions.schema.readText text = ⟨.ok wire', w⟩ ↔
          ∃ wire, WireOptions.schema.readText short = ⟨.ok wire, w⟩ ∧
            wire' = { wire with parameters := d }) ∧
        (∀ wire' w, WireOptions.schema.readValue text = ⟨.ok wire', w⟩ ↔
          ∃ wire, WireOptions.schema.readValue short = ⟨.ok wire, w⟩ ∧
            wire' = { wire with parameters := d })) ∧
    ∀ wire d, ServerOptions.ofWire { wire with parameters := d } =
      (ServerOptions.ofWire wire).map fun s => { s with parameters := d } := by
  refine ⟨?_, ?_, ?_, ServerOptions.ofWire_withParameters⟩
  · intro members text h
    obtain ⟨hdirect, hthrough⟩ := dictionary_readings h
    exact ⟨.ofList members, lastOfEach_iff.2 rfl, hdirect, hthrough, fills_dictionary_text _,
      dictionary_rereads _⟩
  · intro text wire s hread hdecode
    rw [ServerOptions.parameters_of_ofWire hdecode]
    exact WireOptions.exists_stated hread
  · intro front back members text short hfront hback htext hshort
    refine ⟨.ofList members, lastOfEach_iff.2 rfl, ?_, ?_⟩
    · intro wire' w
      exact (WireOptions.readText_parameters hfront hback htext hshort).eq_ok_iff
    · intro wire' w
      exact (WireOptions.readValue_parameters hfront hback htext hshort).eq_ok_iff

/-- A name that is repeated behind another one keeps its place in front of it, by itself and in a
document of options. -/
theorem parameters_kept_of_repeats :
    (∃ d : Parameters, d.entries = [("b", "3"), ("a", "2")] ∧
      Schema.dictionary.readText
        (utf8 "\x7b\"b\":\"1\",\"a\":\"2\",\"b\":\"3\"\x7d") = ⟨.ok d, []⟩ ∧
      Schema.dictionary.readValue
        (utf8 "\x7b\"b\":\"1\",\"a\":\"2\",\"b\":\"3\"\x7d") = ⟨.ok d, []⟩ ∧
      Schema.dictionary.Rereads d) ∧
    ∃ wire s item, (WireOptions.schema.readText (utf8 ("\x7b\"relyingParty\":[null,\"r\"]," ++
        "\"parameters\":\x7b\"b\":\"1\",\"a\":\"2\",\"b\":\"3\"\x7d," ++
        "\"challenge\":\"AQ\"\x7d"))).value? = some wire ∧
      ServerOptions.ofWire wire = .ok s ∧ StatedParameters item s.parameters ∧
      s.parameters.entries = [("b", "3"), ("a", "2")] := by
  obtain ⟨hread, hstated, hinserted, hdecoded⟩ := parameters_kept
  let front : List (String × Json) := [("relyingParty", .array [.null, .string "r"])]
  let back : List (String × Json) := [("challenge", .string "AQ")]
  let members := [("b", "1"), ("a", "2"), ("b", "3")]
  constructor
  · have htree : (Json.object (stringMembers members)).IsTreeOf
        (utf8 "\x7b\"b\":\"1\",\"a\":\"2\",\"b\":\"3\"\x7d") := by decide +kernel
    obtain ⟨d, hlast, htext, hvalue, -, hrereads⟩ := hread members _ htree.1
    exact ⟨d, (lastOfEach_iff.1 hlast).trans (by decide), htext, hvalue, hrereads⟩
  · let wire : WireOptions := ⟨⟨none, "r", none⟩, none, "AQ", [], none, none, [], .empty⟩
    have hshort : (Json.object (front ++ back)).IsTreeOf
        (utf8 "\x7b\"relyingParty\":[null,\"r\"],\"challenge\":\"AQ\"\x7d") := by decide +kernel
    have hlong : (Json.object (front ++
        ("parameters", .object (stringMembers members)) :: back)).IsTreeOf
          (utf8 ("\x7b\"relyingParty\":[null,\"r\"]," ++
            "\"parameters\":\x7b\"b\":\"1\",\"a\":\"2\",\"b\":\"3\"\x7d," ++
            "\"challenge\":\"AQ\"\x7d")) := by decide +kernel
    have hanswers : WireOptions.schema.Answers (.object (front ++ back)) wire := by decide +kernel
    obtain ⟨w, hx⟩ := ((Schema.extract_logs _ _).answers_iff []).2 hanswers
    have hwire := (Schema.readText_eq_ok_iff hshort).2 ⟨by decide +kernel, hx⟩
    obtain ⟨d, hlast, hdirect, -⟩ := hinserted front back members _ _ (by decide) (by decide)
      hlong hshort
    have htext := Reading.value?_eq_some_iff_exists.2 ⟨w, (hdirect _ w).2 ⟨wire, hwire, rfl⟩⟩
    have hserver : ServerOptions.ofWire wire =
        .ok ⟨⟨none, "r", none⟩, none, [1], [], none, none, [], .empty⟩ := by decide +kernel
    have hdecode := hdecoded wire d
    rw [hserver] at hdecode
    obtain ⟨item, -, hitem⟩ := hstated _ _ _ (.inl htext) hdecode
    exact ⟨_, _, item, htext, hdecode, hitem, (lastOfEach_iff.1 hlast).trans (by decide)⟩

end CredentialCeremony
