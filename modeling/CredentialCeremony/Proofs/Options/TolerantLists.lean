import CredentialCeremony.Options.Resolved
import CredentialCeremony.Options.Server
import CredentialCeremony.Proofs.Options.KeyParameters
import CredentialCeremony.Proofs.Schema.Whole

set_option autoImplicit false

/-!
# Tolerant lists

A tolerant list holds the entries of its array that can be read by themselves, in their order
(`Schema.kept`). It stands in three forms, which differ in what null stands for
(`Schema.KeepsReadable`). An array of whatever entries is read to its end in all of them: the entries
are read as trees first, so one that is dropped leaves nothing behind.

Main statement: every tolerant list of the ceremony keeps exactly the readable entries of its array
(`tolerant_lists_keep_readable`).
-/

namespace CredentialCeremony

open Grammar

variable {α β : Type}

/-! ## Null and exact readers -/

namespace Reader

/-- What may be null is read exactly if the rest is. -/
theorem Exact.nullable {depth : Nat} {r : Reader α} {x : Json → Extractor α} (h : Exact depth r x) :
    Exact depth (Reader.nullable r) (nullOr x) := by
  intro c o c'
  constructor
  · intro hread
    rcases of_nullable_eq_ok hread with ⟨rfl, hnull, hwarnings⟩ | ⟨hother, a, rfl, hbehind⟩
    · exact ⟨.null, hnull, Nat.zero_le _, pure_eq_ok_iff.2 ⟨rfl, hwarnings.symm⟩⟩
    · obtain ⟨json, hspelled, hdepth, hx⟩ := (h _ _ _).1 hbehind
      rw [Json.spelled_unspaced_iff] at hspelled
      -- null would have been taken before
      have hnull : json ≠ .null := by
        rintro rfl
        obtain ⟨ch, t, hnext, hopens⟩ := hspelled.opens
        cases hopens
        exact hother t hnext
      refine ⟨json, hspelled, hdepth, ?_⟩
      rw [nullOr_of_ne_null hnull]
      exact bind_eq_ok_iff.2 ⟨a, _, hx, rfl⟩
  · rintro ⟨json, hspelled, hdepth, hx⟩
    by_cases hnull : json = .null
    · subst hnull
      obtain ⟨rfl, hwarnings⟩ := pure_eq_ok_iff.1 hx
      have hcursor : c' = ⟨c'.rest, c.warnings⟩ := by rw [hwarnings]
      rw [hcursor]
      exact nullable_of_null hspelled
    · rw [nullOr_of_ne_null hnull] at hx
      obtain ⟨a, w, ha, hx⟩ := bind_eq_ok_iff.1 hx
      obtain ⟨rfl, rfl⟩ := pure_eq_ok_iff.1 hx
      have hread := (h ⟨unspaced c.rest, c.warnings⟩ a c').2
        ⟨json, Json.spelled_unspaced_iff.2 hspelled, hdepth, ha⟩
      rw [nullable_of_other (not_next_n hspelled hnull)]
      exact bind_eq_ok_iff.2 ⟨a, c', hread, rfl⟩

/-- What is made of a result that is read exactly. -/
theorem Exact.map {depth : Nat} {r : Reader α} {x : Json → Extractor α} (h : Exact depth r x)
    (f : α → β) :
    Exact depth (do return f (← r)) (fun json => do return f (← x json)) := by
  intro c b c'
  simp only [bind_eq_ok_iff, pure_eq_ok_iff, h _ _ _]
  constructor
  · rintro ⟨a, c₁, ⟨json, hjson, hdepth, hx⟩, rfl, rfl⟩
    exact ⟨json, hjson, hdepth, a, _, hx, rfl, rfl⟩
  · rintro ⟨json, hjson, hdepth, a, w, hx, rfl, rfl⟩
    exact ⟨a, c', ⟨json, hjson, hdepth, hx⟩, rfl, rfl⟩

end Reader

namespace Schema

/-- A tolerant list is read exactly, whatever may stand in it. -/
theorem tolerant_exact (element : Schema α) (mode : Resumption) (depth : Nat) :
    Reader.Exact depth ((tolerant element).read mode depth) (tolerant element).extract :=
  Reader.tolerant_exact element.extract depth

theorem nullable_exact {s : Schema α} {mode : Resumption} {depth : Nat}
    (h : Reader.Exact depth (s.read mode depth) s.extract) :
    Reader.Exact depth ((nullable s).read mode depth) (nullable s).extract := by
  rw [extract_nullable]
  exact h.nullable

theorem listOrNull_exact {s : Schema (List α)} {mode : Resumption} {depth : Nat}
    (h : Reader.Exact depth (s.read mode depth) s.extract) :
    Reader.Exact depth ((listOrNull s).read mode depth) (listOrNull s).extract := by
  rw [extract_listOrNull]
  exact h.nullable.map fun o => o.getD []

/-- What is kept of the elements of an array: the results of those that are readable by themselves,
in their order. -/
def kept (element : Schema α) (items : List Json) : List α :=
  items.filterMap fun item => (element.extract item).answer?

theorem kept_append (element : Schema α) (xs ys : List Json) :
    element.kept (xs ++ ys) = element.kept xs ++ element.kept ys :=
  List.filterMap_append

/-- Elements that cannot be read make no difference, wherever they stand. -/
theorem kept_insert {element : Schema α} {others : List Json} (xs ys : List Json)
    (h : ∀ item ∈ others, (element.extract item).answer? = none) :
    element.kept (xs ++ others ++ ys) = element.kept (xs ++ ys) := by
  have hnone : element.kept others = [] := List.filterMap_eq_nil_iff.2 h
  rw [kept_append, kept_append, kept_append, hnone, List.append_nil]

/-- A way of reading whole texts, which sees the elements of an array as `seen`, answers what is kept
of the elements. -/
structure ReadsKept (read : Bytes → Option β) (seen : Json → Json) (element : Schema α)
    (make : List α → β) (null : Option β) : Prop where
  /-- The readable elements of an array are answered, and for null what it stands for; nothing else
  is read. -/
  reads : ∀ text b, read text = some b ↔
    (∃ items, (Json.array items).IsTreeOf text ∧ b = make (element.kept (items.map seen))) ∨
      (Json.null.IsTreeOf text ∧ null = some b)
  /-- Of two arrays in one, what is kept of both is answered. -/
  append : ∀ xs ys text, (Json.array (xs ++ ys)).IsTreeOf text →
    read text = some (make (element.kept (xs.map seen) ++ element.kept (ys.map seen)))
  /-- Unreadable elements make no difference, wherever they stand. -/
  insert : ∀ xs others ys text short,
    (∀ item ∈ others, (element.extract (seen item)).answer? = none) →
    (Json.array (xs ++ others ++ ys)).IsTreeOf text → (Json.array (xs ++ ys)).IsTreeOf short →
      read text = read short

theorem ReadsKept.of_reads {read : Bytes → Option β} {seen : Json → Json} {element : Schema α}
    {make : List α → β} {null : Option β}
    (h : ∀ text b, read text = some b ↔
      (∃ items, (Json.array items).IsTreeOf text ∧ b = make (element.kept (items.map seen))) ∨
        (Json.null.IsTreeOf text ∧ null = some b)) : ReadsKept read seen element make null := by
  have harray {items : List Json} {text : Bytes} (htree : (Json.array items).IsTreeOf text) :
      read text = some (make (element.kept (items.map seen))) :=
    (h _ _).2 (.inl ⟨items, htree, rfl⟩)
  constructor
  case reads => exact h
  case append =>
    intro xs ys text htree
    rw [harray htree, List.map_append, kept_append]
  case insert =>
    intro xs others ys text short hothers htree hshort
    have hnone : ∀ item ∈ others.map seen, (element.extract item).answer? = none := by
      simpa using hothers
    rw [harray htree, harray hshort, List.map_append, List.map_append, kept_insert _ _ hnone,
      List.map_append]

/-- The list holds the readable elements of its array, in whatever way the array is met: at a place in
a text, in a tree, or as a whole text. What stands behind the array is left to be read. -/
structure KeepsReadable (list : Schema β) (element : Schema α) (make : List α → β)
    (null : Option β) : Prop where
  place : ∀ mode depth items text rest w, (Json.array items).Spelled text rest →
    (Json.array items).depth ≤ depth →
      ∃ v, list.read mode depth ⟨text, w⟩ = .ok (make (element.kept items)) ⟨rest, w ++ v⟩
  tree : ∀ items w,
    ∃ v, list.extract (.array items) w = .ok (make (element.kept items)) (w ++ v)
  direct : ReadsKept (fun text => (list.readText text).value?) id element make null
  through : ReadsKept (fun text => (list.readValue text).value?) Json.resolve element make null

theorem KeepsReadable.of_exact {list : Schema β} {element : Schema α} {make : List α → β}
    {null : Option β}
    (hexact : ∀ mode depth, Reader.Exact depth (list.read mode depth) list.extract)
    (hanswer : ∀ json b, (list.extract json).answer? = some b ↔
      (∃ items, json = .array items ∧ b = make (element.kept items)) ∨
        (json = .null ∧ null = some b)) : list.KeepsReadable element make null := by
  have htree (items : List Json) (w : List TimeoutWarning) :
      ∃ v, list.extract (.array items) w = .ok (make (element.kept items)) (w ++ v) := by
    obtain ⟨v, hx⟩ := (list.extract_logs _).of_answer? ((hanswer _ _).2 (.inl ⟨items, rfl, rfl⟩))
    exact ⟨v, hx w⟩
  constructor
  case place =>
    intro mode depth items text rest w hspelled hdepth
    obtain ⟨v, hx⟩ := htree items w
    exact ⟨v, (hexact mode depth _ _ _).2 ⟨_, hspelled, hdepth, hx⟩⟩
  case tree => exact htree
  case direct =>
    refine .of_reads fun text b => ?_
    simp only [Reading.value?_eq_some_iff_exists, readText, (hexact .inPlace _).run_eq_ok_iff,
      List.map_id]
    rw [exists_comm]
    simp only [exists_and_left, (list.extract_logs _).answers_iff, hanswer]
    constructor
    · rintro ⟨json, hjson, ⟨items, rfl, rfl⟩ | ⟨rfl, hnull⟩⟩
      · exact .inl ⟨items, hjson, rfl⟩
      · exact .inr ⟨hjson, hnull⟩
    · rintro (⟨items, hjson, rfl⟩ | ⟨hjson, hnull⟩)
      · exact ⟨_, hjson, .inl ⟨items, rfl, rfl⟩⟩
      · exact ⟨_, hjson, .inr ⟨rfl, hnull⟩⟩
  case through =>
    refine .of_reads fun text b => ?_
    simp only [readValue_value?_eq_some_iff, exists_and_left, (list.extract_logs _).answers_iff,
      hanswer]
    constructor
    · rintro ⟨json, hjson, ⟨items, hitems, rfl⟩ | ⟨hresolve, hnull⟩⟩
      · obtain ⟨items, rfl, rfl⟩ := Json.exists_items_of_resolve hitems
        exact .inl ⟨items, hjson, rfl⟩
      · cases json with
        | null => exact .inr ⟨hjson, hnull⟩
        | _ => cases hresolve
    · rintro (⟨items, hjson, rfl⟩ | ⟨hjson, hnull⟩)
      · exact ⟨_, hjson, .inl ⟨_, by rw [Json.resolve, Json.resolveItems_eq_map], rfl⟩⟩
      · exact ⟨_, hjson, .inr ⟨rfl, hnull⟩⟩

/-! ## The three forms -/

/-- A tolerant list answers what is kept of an array. -/
theorem answer?_tolerant_iff {element : Schema α} {json : Json} {as : List α} :
    ((tolerant element).extract json).answer? = some as ↔
      ∃ items, json = .array items ∧ as = element.kept items :=
  answer?_tolerant_eq_some_iff

theorem keepsReadable_tolerant (element : Schema α) :
    (tolerant element).KeepsReadable element id none := by
  refine .of_exact (tolerant_exact element) fun json as => ?_
  rw [answer?_tolerant_iff]
  simp

theorem keepsReadable_nullable (element : Schema α) :
    (nullable (tolerant element)).KeepsReadable element some (some none) := by
  refine .of_exact (fun mode depth => nullable_exact (tolerant_exact element mode depth))
    fun json o => ?_
  rw [extract_nullable]
  by_cases hnull : json = .null
  · subst hnull
    simp [Reader.nullOr]
  · rw [Reader.nullOr_of_ne_null hnull, Extractor.answer?_map, Option.map_eq_some_iff]
    simp only [answer?_tolerant_iff, hnull, false_and, or_false]
    constructor
    · rintro ⟨_, ⟨items, rfl, rfl⟩, rfl⟩
      exact ⟨items, rfl, rfl⟩
    · rintro ⟨items, rfl, rfl⟩
      exact ⟨_, ⟨items, rfl, rfl⟩, rfl⟩

theorem keepsReadable_listOrNull (element : Schema α) :
    (listOrNull (tolerant element)).KeepsReadable element id (some []) := by
  refine .of_exact (fun mode depth => listOrNull_exact (tolerant_exact element mode depth))
    fun json as => ?_
  cases json with
  | null => simp [Schema.extract, eq_comm]
  | _ =>
    rw [Schema.extract, answer?_tolerant_iff]
    · simp
    · simp

/-- A record has a field of this name that holds the readable elements of its array. -/
def HasTolerantList {ρ : Type} (s : Schema ρ) (name : String) (element : Schema α)
    (make : List α → β) (null : Option β) (get : ρ → β) : Prop :=
  ∃ (list : Schema β) (presence : Presence β) (index : Nat),
    s.HasField name list presence index get ∧ list.KeepsReadable element make null

end Schema

open Schema

/-- The tolerant lists of a ceremony are the acceptable keys that a server names, the transports of a
credential, and the credentials to be excluded or allowed. They keep exactly the elements of their
array that can be read by themselves, in their order, in either way of reading and at any place, so
neither neighbours nor unreadable elements make a difference. Null is refused for the keys, leaves
the transports absent and is the empty list of credentials; any other value is refused. -/
theorem tolerant_lists_keep_readable :
    WireOptions.schema.HasTolerantList "pubKeyCredParams" KeyParameters.schema id none
      WireOptions.keyParameters ∧
    CredentialDescriptor.schema.HasTolerantList "transports" (.choice Transport.names) some
      (some none) CredentialDescriptor.transports ∧
    WireDescriptor.schema.HasTolerantList "transports" (.choice Transport.names) some (some none)
      WireDescriptor.transports ∧
    AttestationResponse.schema.HasTolerantList "transports" (.choice Transport.names) some
      (some none) AttestationResponse.transports ∧
    CreationOptions.schema.HasTolerantList "excludeCredentials" CredentialDescriptor.schema id
      (some []) CreationOptions.excludeCredentials ∧
    RequestOptions.schema.HasTolerantList "allowCredentials" CredentialDescriptor.schema id
      (some []) RequestOptions.allowCredentials ∧
    (∀ (α : Type) (element : Schema α) (xs ys : List Json),
      element.kept (xs ++ ys) = element.kept xs ++ element.kept ys) ∧
    (∀ (α : Type) (element : Schema α) (xs others ys : List Json),
      (∀ item ∈ others, (element.extract item).answer? = none) →
        element.kept (xs ++ others ++ ys) = element.kept (xs ++ ys)) ∧
    (∀ (α : Type) (element : Schema α) (text : Bytes) (item : Json), item.IsTreeOf text →
      (element.readValue text).value? = (element.extract item.resolve).answer?) := by
  refine ⟨?_, ?_, ?_, ?_, ?_, ?_, fun _ => kept_append, ?_, ?_⟩
  · exact ⟨_, _, _, WireOptions.hasField_keyParameters, keepsReadable_tolerant _⟩
  · exact ⟨_, _, 2, ⟨_, _, _, _, _, rfl, .there (by simp) (.there (by simp) .here), fun _ => rfl⟩,
      keepsReadable_nullable _⟩
  · exact ⟨_, _, 2, ⟨_, _, _, _, _, rfl, .there (by simp) (.there (by simp) .here), fun _ => rfl⟩,
      keepsReadable_nullable _⟩
  · exact ⟨_, _, 2, ⟨_, _, _, _, _, rfl, .there (by simp) (.there (by simp) .here), fun _ => rfl⟩,
      keepsReadable_nullable _⟩
  · exact ⟨_, _, 5, ⟨_, _, _, _, _, rfl, .there (by simp) (.there (by simp) (.there (by simp)
      (.there (by simp) (.there (by simp) .here)))), fun _ => rfl⟩, keepsReadable_listOrNull _⟩
  · exact ⟨_, _, 3, ⟨_, _, _, _, _, rfl, .there (by simp) (.there (by simp) (.there (by simp)
      .here)), fun _ => rfl⟩, keepsReadable_listOrNull _⟩
  · intro α element xs others ys h
    exact kept_insert xs ys h
  · intro α element text item htree
    exact readValue_value?_of_tree htree

/-- A number in front of an acceptable key is dropped, and null is no list of keys. -/
theorem tolerant_lists_keep_readable_behind_number :
    (∃ (list : Schema (List KeyParameters)) (presence : Presence (List KeyParameters)) (index : Nat),
      WireOptions.schema.HasField "pubKeyCredParams" list presence index
        WireOptions.keyParameters ∧
      (list.readText (utf8 "[5,[\"public-key\",-7]]")).value? =
        (list.readText (utf8 "[[\"public-key\",-7]]")).value? ∧
      (list.readText (utf8 "null")).value? = none) ∧
    KeyParameters.schema.kept ([] ++ [.null] ++ [.array [.null, .number (.integer (-7))]]) =
      KeyParameters.schema.kept [.array [.null, .number (.integer (-7))]] ∧
    (KeyParameters.schema.readValue (utf8 "[\x7b\x7d,-7]")).value? = some ⟨.unknown, -7⟩ := by
  obtain ⟨⟨list, presence, index, hfield, hkeeps⟩, -, -, -, -, -, -, hinsert, halone⟩ :=
    tolerant_lists_keep_readable
  have hlong : (Json.array ([] ++ [.number (.integer 5)] ++
      [.array [.string "public-key", .number (.integer (-7))]])).IsTreeOf
        (utf8 "[5,[\"public-key\",-7]]") := by decide +kernel
  have hshort : (Json.array ([] ++
      [.array [.string "public-key", .number (.integer (-7))]])).IsTreeOf
        (utf8 "[[\"public-key\",-7]]") := by decide +kernel
  have hnull : Json.null.IsTreeOf (utf8 "null") := by decide +kernel
  have hentry : (Json.array [.object [], .number (.integer (-7))]).IsTreeOf
      (utf8 "[\x7b\x7d,-7]") := by decide +kernel
  refine ⟨⟨list, presence, index, hfield, ?_, ?_⟩, ?_, ?_⟩
  · exact hkeeps.direct.insert [] [.number (.integer 5)] _ _ _ (by decide) hlong hshort
  · rw [Option.eq_none_iff_forall_ne_some]
    intro keys hkeys
    rcases (hkeeps.direct.reads _ _).1 hkeys with ⟨items, hitems, -⟩ | ⟨-, hnone⟩
    · cases hitems.unique hnull
    · cases hnone
  · exact hinsert _ KeyParameters.schema [] [.null] _ (by decide)
  · rw [halone _ KeyParameters.schema _ _ hentry]
    decide +kernel

end CredentialCeremony
