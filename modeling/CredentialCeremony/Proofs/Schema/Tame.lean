import CredentialCeremony.Proofs.Schema.Records

set_option autoImplicit false

/-!
# Documents that are passed whole

A document is tame for a schema if in the place of every lenient choice that is read directly there
stands something that the reader passes as a whole: a name, known or not, or an object of one known
name and null.

Main statement: what a tree gives for a tame document is what is read directly from the text, and the
reader ends behind the document (`Schema.follows`).
-/

namespace CredentialCeremony

/-- Whether the value is null. -/
def Json.isNull : Json → Bool
  | .null => true
  | _ => false

@[simp] theorem Json.isNull_iff {json : Json} : json.isNull = true ↔ json = .null := by
  cases json <;> simp [Json.isNull]

/-- Whether a choice is passed as a whole where the value stands, taken or not. -/
def Choice.passes {α : Type} (c : Choice α) : Json → Bool
  | .string _ => true
  | .object [(name, .null)] => (c.ofName name).isOk
  | _ => false

mutual

/-- Whether every lenient choice that is read directly is passed as a whole. -/
def Schema.tame : {α : Type} → Schema α → Json → Bool
  | _, .lenient c _, json => c.passes json
  | _, .lenientOption c, json => json.isNull || c.passes json
  | _, .nullable s, json => json.isNull || s.tame json
  | _, .list s, json =>
    match json with
    | .array items => items.all s.tame
    | _ => true
  | _, .listOrNull s, json => json.isNull || s.tame json
  | _, .record fields _, json =>
    match json with
    | .object members => members.all fun member => fields.tameMember member.1 member.2
    | .array items => fields.tameElements items
    | _ => true
  | _, .extensible name known, json =>
    match json with
    | .object members => members.all fun member =>
      if member.1 = name then member.2.isNull || known.tame member.2 else true
    | _ => true
  -- what is read exactly, or as a tree first, is passed as a whole
  | _, _, _ => true

/-- Whether this holds of the field that a member of a record is read for. -/
def Fields.tameMember : {τ σ : Type} → Fields τ σ → (name : String) → Json → Bool
  | _, _, .nil, _, _ => true
  | _, _, .cons name aliases schema _ rest, given, json =>
    if given = name ∨ given ∈ aliases then schema.tame json else rest.tameMember given json

/-- Whether this holds of the fields that the elements of an array are read for. -/
def Fields.tameElements : {τ σ : Type} → Fields τ σ → List Json → Bool
  | _, _, .nil, _ => true
  | _, _, .cons _ _ schema _ rest, items =>
    match items with
    | [] => true
    | json :: items => schema.tame json && rest.tameElements items

end

namespace Reader

open Grammar

variable {α β : Type}

/-- Where a tame value is spelled and a tree gives a result for it, the reader gives the same and
ends behind the value. -/
def Follows (depth : Nat) (tame : Json → Bool) (r : Reader α) (x : Json → Extractor α) : Prop :=
  ∀ json text rest w a w', json.Spelled text rest → json.depth ≤ depth → tame json = true →
    x json w = .ok a w' → r ⟨text, w⟩ = .ok a ⟨rest, w'⟩

theorem Exact.follows {depth : Nat} {tame : Json → Bool} {r : Reader α} {x : Json → Extractor α}
    (h : Exact depth r x) : Follows depth tame r x := by
  intro json text rest w a w' hspelled hdepth _ hx
  exact (h _ _ _).2 ⟨json, hspelled, hdepth, hx⟩

theorem tolerate_of_ok {mode : Resumption} {r : Reader α} {c c' : Cursor} {a : α}
    (h : r c = .ok a c') : tolerate mode r c = .ok (.ok a) c' := by
  cases mode with
  | inPlace => simp [tolerate, attempt, h]
  | behindValue => simp [tolerate, h]

/-- A failure behind a value that is spelled may be passed over in either way. -/
theorem tolerate_of_error {mode : Resumption} {r : Reader α} {json : Json} {text rest : Bytes}
    {w w' : List TimeoutWarning} {e : ReadError} (hjson : json.Spelled text rest)
    (h : r ⟨text, w⟩ = .error e ⟨rest, w'⟩) :
    tolerate mode r ⟨text, w⟩ = .ok (.error e) ⟨rest, w'⟩ := by
  cases mode with
  | inPlace => simp [tolerate, attempt, h]
  | behindValue => simp [tolerate, h, skip_of_spelled hjson]

/-- A choice where a string stands ends behind the string, whatever comes of it. -/
theorem choice_of_string {ch : Choice α} {depth : Nat} {name : String} {text rest : Bytes}
    {w : List TimeoutWarning} (h : (Json.string name).Spelled text rest) :
    choice depth ch ⟨text, w⟩ =
      match ch.ofName name with
      | .ok a => .ok a ⟨rest, w⟩
      | .error e => .error e ⟨rest, w⟩ := by
  obtain ⟨t, hnext, hchars⟩ := h
  have hbody : stringBody ⟨t, w⟩ = .ok name ⟨rest, w⟩ := stringBody_eq_ok_iff.2 ⟨hchars, rfl⟩
  rw [choice]
  rw [peek_bind_of_next hnext]
  apply (bind_of_ok (advance_of_next hnext)).trans
  rw [bind_of_ok hbody]
  cases ch.ofName name with
  | ok a => rfl
  | error e => rfl

theorem choice_passes_iff {ch : Choice α} {json : Json} : ch.passes json = true ↔
    (∃ name, json = .string name) ∨
      ∃ name a, json = .object [(name, .null)] ∧ ch.ofName name = .ok a := by
  unfold Choice.passes
  split
  · simp
  · rename_i name
    cases hname : ch.ofName name <;> simp [hname, Except.isOk, Except.toBool]
  · simp_all

/-- What is taken is passed as a whole. -/
theorem passes_of_choice_eq_ok {ch : Choice α} {json : Json} {a : α} {w w' : List TimeoutWarning}
    (h : Extractor.choice ch json w = .ok a w') : ch.passes json = true := by
  obtain ⟨⟨name, rfl | rfl, hname⟩, -⟩ := extractor_choice_eq_ok_iff.1 h
  · rfl
  · exact choice_passes_iff.2 (.inr ⟨name, a, rfl, hname⟩)

/-- What is passed as a whole is taken both from the text and from the tree, or from neither. -/
theorem choice_of_passes {ch : Choice α} {depth : Nat} {json : Json} {text rest : Bytes}
    {w : List TimeoutWarning} (hspelled : json.Spelled text rest) (hdepth : json.depth ≤ depth)
    (hpasses : ch.passes json = true) :
    (∃ a, choice depth ch ⟨text, w⟩ = .ok a ⟨rest, w⟩ ∧ Extractor.choice ch json w = .ok a w) ∨
      ∃ e, choice depth ch ⟨text, w⟩ = .error e ⟨rest, w⟩ ∧
        Extractor.choice ch json w = .error e w := by
  -- a name is taken or refused behind it; an object of one known name is taken
  rcases choice_passes_iff.1 hpasses with ⟨name, rfl⟩ | ⟨name, a, rfl, hname⟩
  · rw [choice_of_string hspelled, Extractor.choice]
    cases hname : ch.ofName name with
    | ok a => exact .inl ⟨a, rfl, rfl⟩
    | error e => exact .inr ⟨e, rfl, rfl⟩
  · have hx : Extractor.choice ch (.object [(name, .null)]) w = .ok a w :=
      extractor_choice_eq_ok_iff.2 ⟨⟨name, .inr rfl, hname⟩, rfl⟩
    exact .inl ⟨a, (choice_exact ch depth _ _ _).2 ⟨_, hspelled, hdepth, hx⟩, hx⟩

/-- A lenient choice that is passed as a whole is read as a tree gives it. -/
theorem lenient_follows (mode : Resumption) (depth : Nat) (ch : Choice α) (default : α) :
    Follows depth ch.passes (orElse mode (choice depth ch) default) (fun json => do
      return (← Extractor.attempt (Extractor.choice ch json)).getD default) := by
  intro json text rest w a w' hspelled hdepth hpasses hx
  obtain ⟨o, w₁, hattempt, hx⟩ := bind_eq_ok_iff.1 hx
  obtain ⟨rfl, rfl⟩ := pure_eq_ok_iff.1 hx
  rw [orElse]
  -- either way the reader ends behind the value, as a tree reader does
  rcases choice_of_passes (w := w) hspelled hdepth hpasses with ⟨a, hread, hx⟩ | ⟨e, hread, hx⟩
  · simp only [Extractor.attempt, hx] at hattempt
    cases hattempt
    rw [bind_of_ok (tolerate_of_ok hread)]
    rfl
  · simp only [Extractor.attempt, hx] at hattempt
    cases hattempt
    rw [bind_of_ok (tolerate_of_error hspelled hread)]
    rfl

/-- A value that is spelled and is not null does not start like null. -/
theorem not_next_n {json : Json} {text rest : Bytes} (hspelled : json.Spelled text rest)
    (hnull : json ≠ .null) (t : Bytes) : ¬ Next 'n' text t := by
  intro hnext
  exact hnull (Json.opens_n_iff.1 (hspelled.opens_of_next hnext))

/-- What a tree gives for a value that may be null. -/
def nullOr (x : Json → Extractor α) (json : Json) : Extractor (Option α) :=
  match json with
  | .null => return none
  | json => do return some (← x json)

theorem nullOr_of_ne_null {x : Json → Extractor α} {json : Json} (h : json ≠ .null) :
    nullOr x json = do return some (← x json) := by
  cases json with
  | null => exact absurd rfl h
  | _ => rfl

/-- What may be null is read as a tree gives it if the rest is. -/
theorem Follows.nullable {depth : Nat} {tame : Json → Bool} {r : Reader α}
    {x : Json → Extractor α} (h : Follows depth tame r x) :
    Follows depth (fun json => json.isNull || tame json) (nullable r) (nullOr x) := by
  intro json text rest w a w' hspelled hdepth htame hx
  by_cases hnull : json = .null
  -- null is tame whatever the rest asks for
  · subst hnull
    obtain ⟨rfl, rfl⟩ := pure_eq_ok_iff.1 hx
    exact nullable_of_null hspelled
  · rw [nullOr_of_ne_null hnull] at hx
    obtain ⟨b, w₁, hb, hx⟩ := bind_eq_ok_iff.1 hx
    obtain ⟨rfl, rfl⟩ := pure_eq_ok_iff.1 hx
    have htame' : tame json = true := by
      simpa [hnull] using htame
    have hread := h _ _ _ _ _ _ (Json.spelled_unspaced_iff.2 hspelled) hdepth htame' hb
    rw [nullable_of_other (not_next_n hspelled hnull), bind_of_ok hread]
    rfl

/-- What a tree gives for a lenient choice that may be null. -/
def choiceOrNone (ch : Choice α) (json : Json) : Extractor (Option α) :=
  match json with
  | .null => return none
  | json => Extractor.attempt (Extractor.choice ch json)

theorem choiceOrNone_of_ne_null {ch : Choice α} {json : Json} (h : json ≠ .null) :
    choiceOrNone ch json = Extractor.attempt (Extractor.choice ch json) := by
  cases json with
  | null => exact absurd rfl h
  | _ => rfl

/-- What is made of a result that is read as a tree gives it. -/
theorem Follows.map {depth : Nat} {tame : Json → Bool} {r : Reader α} {x : Json → Extractor α}
    (h : Follows depth tame r x) (f : α → β) :
    Follows depth tame (do return f (← r)) (fun json => do return f (← x json)) := by
  intro json text rest w b w' hspelled hdepth htame hx
  obtain ⟨a, w₁, ha, hx⟩ := bind_eq_ok_iff.1 hx
  obtain ⟨rfl, rfl⟩ := pure_eq_ok_iff.1 hx
  rw [bind_of_ok (h _ _ _ _ _ _ hspelled hdepth htame ha)]
  rfl

/-- A lenient choice that may be null is read as a tree gives it. -/
theorem lenientOption_follows (mode : Resumption) (depth : Nat) (ch : Choice α) :
    Follows depth (fun json => json.isNull || ch.passes json)
      (orElse mode (nullable (choice depth ch)) none) (choiceOrNone ch) := by
  intro json text rest w a w' hspelled hdepth htame hx
  rw [orElse]
  by_cases hnull : json = .null
  -- null is no failure, so nothing has to be passed over
  · subst hnull
    obtain ⟨rfl, rfl⟩ := pure_eq_ok_iff.1 hx
    rw [bind_of_ok (tolerate_of_ok (nullable_of_null hspelled))]
    rfl
  · rw [choiceOrNone_of_ne_null hnull] at hx
    have hpasses : ch.passes json = true := by
      simpa [hnull] using htame
    have hother : nullable (choice depth ch) ⟨text, w⟩ = _ :=
      nullable_of_other (not_next_n hspelled hnull)
    rcases choice_of_passes (w := w) (Json.spelled_unspaced_iff.2 hspelled) hdepth hpasses with
      ⟨b, hread, hb⟩ | ⟨e, hread, he⟩
    · simp only [Extractor.attempt, hb] at hx
      cases hx
      rw [bind_of_ok hread] at hother
      rw [bind_of_ok (tolerate_of_ok hother)]
      rfl
    · simp only [Extractor.attempt, he] at hx
      cases hx
      rw [bind_of_error hread] at hother
      rw [bind_of_ok (tolerate_of_error hspelled hother)]
      rfl

/-- A timeout is read as a tree gives it: whatever stands in its place is read as a tree. -/
theorem timeout_follows (mode : Resumption) (depth : Nat) :
    Follows depth (fun _ => true) (timeout mode depth) Extractor.timeout := by
  intro json text rest w a w' hspelled hdepth _ hx
  have hvalue : value depth ⟨text, w⟩ = .ok json ⟨rest, w⟩ :=
    (value_exact _ _ _ _).2 ⟨json, hspelled, hdepth, rfl⟩
  rw [timeout]
  rw [bind_of_ok (tolerate_of_ok hvalue)]
  exact extract_eq_ok_iff.2 ⟨hx, rfl⟩

/-- An array of what is read as trees give it is read so. -/
theorem Follows.array {element : Nat → Reader α} {tame : Json → Bool} {x : Json → Extractor α}
    {depth : Nat} (h : ∀ depth, Follows depth tame (element depth) x) :
    Follows depth (fun json => match json with | .array items => items.all tame | _ => true)
      (array depth element) (itemsOf x) := by
  intro json text rest w as w' hspelled hdepth htame hx
  obtain ⟨items, rfl, hall⟩ := itemsOf_eq_ok_iff.1 hx
  cases depth with
  | zero => cases hdepth
  | succ d =>
    obtain ⟨t, hnext, hitems⟩ := hspelled
    have hdepths := Json.itemsDepth_le_iff.1 (Nat.le_of_succ_le_succ hdepth)
    -- each element is tame, so each is read as the tree gives it
    have hread (json : Json) (hmem : json ∈ items) (item behind : Bytes)
        (w : List TimeoutWarning) (a : α) (w' : List TimeoutWarning)
        (hjson : json.Spelled item behind) (hx : x json w = .ok a w') :
        element d ⟨item, w⟩ = .ok a ⟨behind, w'⟩ :=
      h d _ _ _ _ _ _ hjson (hdepths json hmem) (List.all_eq_true.1 htame json hmem) hx
    obtain ⟨c₁, hrounds, hclose⟩ := elementRounds_of_spelled hread hitems hall
    have hlength := Json.ItemsSpelled.length_lt hitems
    rw [← all_length hall] at hlength
    exact array_eq_ok_iff.2
      ⟨t, d, c₁, hnext, rfl, elements_eq_ok_iff.2 ⟨hrounds, by simp only; omega⟩, hclose⟩

/-- The same for the reader of what stands behind a name. -/
def MemberFollows {σ : Type} (depth : Nat) (tame : String → Json → Bool)
    (member : String → σ → Reader σ) (x : String → Json → σ → Extractor σ) : Prop :=
  ∀ name json s colon item rest w s' w', Next ':' colon item → json.Spelled item rest →
    json.depth ≤ depth → tame name json = true → x name json s w = .ok s' w' →
      member name s ⟨colon, w⟩ = .ok s' ⟨rest, w'⟩

/-- The same for the reader of the elements of an array, up to and with its bracket. -/
def ElementsFollow {τ : Type} (depth : Nat) (tame : List Json → Bool) (elements : Bool → Reader τ)
    (x : List Json → Extractor τ) : Prop :=
  ∀ items first text rest w a w', Json.ItemsSpelled items first text rest →
    (∀ json ∈ items, json.depth ≤ depth) → tame items = true → x items w = .ok a w' →
      ∃ c₁, elements first ⟨text, w⟩ = .ok a c₁ ∧ closeArray c₁ = .ok () ⟨rest, w'⟩

theorem MemberFollows.members_close {σ : Type} {depth : Nat} {tame : String → Json → Bool}
    {member : String → σ → Reader σ} {x : String → Json → σ → Extractor σ}
    (h : MemberFollows depth tame member x) {ms : List (String × Json)} {text rest : Bytes}
    {w w' : List TimeoutWarning} {s s' : σ} (hmembers : Json.MembersSpelled ms true text rest)
    (hdepths : ∀ m ∈ ms, m.2.depth ≤ depth) (htame : ∀ m ∈ ms, tame m.1 m.2 = true)
    (hover : overMembers x ms s w = .ok s' w') :
    ∃ c₁, members member s ⟨text, w⟩ = .ok s' c₁ ∧ closeObject c₁ = .ok () ⟨rest, w'⟩ := by
  have hread (m : String × Json) (hmem : m ∈ ms) (colon item behind : Bytes) (s : σ)
      (w : List TimeoutWarning) (s' : σ) (w' : List TimeoutWarning) (hcolon : Next ':' colon item)
      (hjson : m.2.Spelled item behind) (hx : x m.1 m.2 s w = .ok s' w') :
      member m.1 s ⟨colon, w⟩ = .ok s' ⟨behind, w'⟩ :=
    h _ _ _ _ _ _ _ _ _ hcolon hjson (hdepths m hmem) (htame m hmem) hx
  obtain ⟨c₁, hrounds, hclose⟩ := memberRounds_of_spelled hread hmembers hover
  have hlength := Json.MembersSpelled.length_lt hmembers
  rw [← List.length_map Prod.fst] at hlength
  exact ⟨c₁, members_eq_ok_iff.2 ⟨_, hrounds, by simp only; omega⟩, hclose⟩

end Reader

open Reader Grammar

section Composed

variable {mode : Resumption}

/-- A record follows if its members and its elements do. -/
theorem record_follows {τ σ α : Type} {fields : Fields τ σ} {layout : Layout τ α}
    (hmember : ∀ depth, MemberFollows depth fields.tameMember
      (fun name read => fields.readMember mode depth name read) fields.extractMember)
    (helements : ∀ depth, ElementsFollow depth fields.tameElements
      (fields.readElements mode depth) fields.extractElements) (depth : Nat) :
    Follows depth (Schema.record fields layout).tame ((Schema.record fields layout).read mode depth)
      (Schema.record fields layout).extract := by
  intro json text rest w a w' hspelled hdepth htame hx
  rw [read_record_eq_ok_iff]
  -- a record is taken out of an object or an array of a tree, and out of nothing else
  cases json with
  | object ms =>
    cases depth with
    | zero => cases hdepth
    | succ d =>
      obtain ⟨t, hnext, hmembers⟩ := hspelled
      have hdepths := Json.membersDepth_le_iff.1 (Nat.le_of_succ_le_succ hdepth)
      obtain ⟨read, w₁, hover, hx⟩ := bind_eq_ok_iff.1 hx
      obtain ⟨parts, w₂, hparts, hx⟩ := bind_eq_ok_iff.1 hx
      obtain ⟨rfl, rfl⟩ := pure_eq_ok_iff.1 hx
      obtain ⟨hcomplete, rfl⟩ := extractor_ofExcept_eq_ok_iff.1 hparts
      obtain ⟨c₁, hread, hclose⟩ :=
        (hmember d).members_close hmembers hdepths (List.all_eq_true.1 htame) hover
      exact ⟨d, parts, t, c₁, rfl, rfl, .inl ⟨read, hnext, hread, hcomplete, hclose⟩⟩
  | array items =>
    cases depth with
    | zero => cases hdepth
    | succ d =>
      obtain ⟨t, hnext, hitems⟩ := hspelled
      have hdepths := Json.itemsDepth_le_iff.1 (Nat.le_of_succ_le_succ hdepth)
      obtain ⟨parts, w₁, hparts, hx⟩ := bind_eq_ok_iff.1 hx
      obtain ⟨rfl, rfl⟩ := pure_eq_ok_iff.1 hx
      obtain ⟨c₁, hread, hclose⟩ := helements d _ _ _ _ _ _ _ hitems hdepths htame hparts
      exact ⟨d, parts, t, c₁, rfl, rfl, .inr ⟨hnext, hread, hclose⟩⟩
  | _ => exact absurd hx throw_ne_ok

/-- What a tree gives for one member of an extensible record. -/
def extensibleMember {κ : Type} (name : String) (known : Schema κ) (given : String) (json : Json)
    (read : Option (Option κ) × List (String × Json)) :
    Extractor (Option (Option κ) × List (String × Json)) :=
  if given = name then
    match read.1, json with
    | some _, _ => throw (.duplicateField name)
    | none, .null => return (some none, read.2)
    | none, json => do return (some (some (← known.extract json)), read.2)
  else return (read.1, (given, json) :: read.2)

/-- The known member of an extensible record is one that may be null. -/
theorem extensibleMember_eq_ok_iff {κ : Type} {name given : String} {known : Schema κ}
    {json : Json} {read read' : Option (Option κ) × List (String × Json)}
    {w w' : List TimeoutWarning} : extensibleMember name known given json read w = .ok read' w' ↔
      (given = name ∧ read.1 = none ∧ ∃ o, nullOr known.extract json w = .ok o w' ∧
        read' = (some o, read.2)) ∨
      (given ≠ name ∧ w = w' ∧ read' = (read.1, (given, json) :: read.2)) := by
  unfold extensibleMember
  by_cases hname : given = name
  · rw [if_pos hname]
    obtain ⟨value, others⟩ := read
    cases value with
    | some o => exact iff_of_false throw_ne_ok (by simp [hname])
    | none =>
      -- the two cases of the tree reader are those of a value that may be null
      by_cases hnull : json = .null
      · subst hnull
        simp only [nullOr, pure_eq_ok_iff]
        grind
      · rw [nullOr_of_ne_null hnull]
        simp only [bind_eq_ok_iff, pure_eq_ok_iff]
        grind
  · rw [if_neg hname, pure_eq_ok_iff]
    grind

theorem readExtensible_follows {κ : Type} {name : String} {known : Schema κ} {depth : Nat}
    (hknown : Follows depth known.tame (known.read mode depth) known.extract) :
    MemberFollows depth
      (fun given json => if given = name then json.isNull || known.tame json else true)
      (readExtensible mode name known depth) (extensibleMember name known) := by
  intro given json read colonText item rest w read' w' hcolon hspelled hdepth htame hx
  apply readExtensible_eq_ok_iff.2
  refine ⟨item, hcolon, ?_⟩
  rcases extensibleMember_eq_ok_iff.1 hx with
    ⟨hname, hfresh, o, ho, rfl⟩ | ⟨hname, rfl, rfl⟩
  · simp only [hname, if_true] at htame
    have hread := hknown.nullable _ _ _ _ _ _ hspelled hdepth htame ho
    exact .inl ⟨hname, hfresh, o, hread, rfl⟩
  · have hread : value depth ⟨item, w⟩ = .ok json ⟨rest, w⟩ :=
      (value_exact _ _ _ _).2 ⟨json, hspelled, hdepth, rfl⟩
    exact .inr ⟨hname, json, hread, rfl⟩

/-- An extensible record follows if its known member does. -/
theorem extensible_follows {κ : Type} {name : String} {known : Schema κ}
    (hknown : ∀ depth, Follows depth known.tame (known.read mode depth) known.extract)
    (depth : Nat) :
    Follows depth (Schema.extensible name known).tame
      ((Schema.extensible name known).read mode depth) (Schema.extensible name known).extract := by
  intro json text rest w a w' hspelled hdepth htame hx
  rw [read_extensible_eq_ok_iff]
  cases json with
  | object ms =>
    cases depth with
    | zero => cases hdepth
    | succ d =>
      obtain ⟨t, hnext, hmembers⟩ := hspelled
      have hdepths := Json.membersDepth_le_iff.1 (Nat.le_of_succ_le_succ hdepth)
      obtain ⟨read, w₁, hover, hx⟩ := bind_eq_ok_iff.1 hx
      obtain ⟨rfl, rfl⟩ := pure_eq_ok_iff.1 hx
      obtain ⟨c₁, hread, hclose⟩ :=
        (readExtensible_follows (hknown d)).members_close hmembers hdepths
          (List.all_eq_true.1 htame) hover
      exact ⟨d, read, t, c₁, rfl, hnext, hread, hclose, rfl⟩
  | _ => exact absurd hx throw_ne_ok

end Composed

/-! ## The tree readers of the schemas -/

theorem extract_flag : Schema.flag.extract = flagOf := by
  funext json
  cases json <;> rfl

theorem extract_lenientOption {α : Type} (c : Choice α) :
    (Schema.lenientOption c).extract = choiceOrNone c := by
  funext json
  cases json <;> rfl

theorem extract_nullable {α : Type} (s : Schema α) :
    (Schema.nullable s).extract = nullOr s.extract := by
  funext json
  cases json <;> rfl

theorem extract_list {α : Type} (s : Schema α) : (Schema.list s).extract = itemsOf s.extract := by
  funext json
  cases json <;> rfl

theorem extract_tolerant {α : Type} (s : Schema α) : (Schema.tolerant s).extract = fun json =>
    match json with
    | .array items => Extractor.readable s.extract items
    | _ => Extractor.fail := by
  funext json
  cases json <;> rfl

theorem extract_listOrNull {α : Type} (s : Schema (List α)) :
    (Schema.listOrNull s).extract = fun json => do return (← nullOr s.extract json).getD [] := by
  funext json
  by_cases hnull : json = .null
  · subst hnull
    rfl
  · rw [nullOr_of_ne_null hnull]
    cases json with
    | null => exact absurd rfl hnull
    | _ => simp [Schema.extract]

theorem extract_dictionary : Schema.dictionary.extract = dictionaryOf := by
  funext json
  cases json <;> rfl

mutual

/-- What a tree gives for a tame document is read directly from the text, up to its end. -/
theorem Schema.follows (mode : Resumption) : {α : Type} → (s : Schema α) → (depth : Nat) →
    Follows depth s.tame (s.read mode depth) s.extract
  | _, .string, depth => (string_exact depth).follows
  | _, .bytes, depth => (bytes_exact depth).follows
  | _, .flag, depth => extract_flag ▸ (flag_exact depth).follows
  | _, .word, depth => (word_exact depth).follows
  | _, .integer, depth => (integer_exact depth).follows
  -- a timeout passes over everything, since it reads a whole tree first
  | _, .timeout, depth => timeout_follows mode depth
  | _, .spelled s, depth =>
    ((string_exact depth).bind_extract fun text => Extractor.ofExcept (s.parse text)).follows
  | _, .choice c, depth => (choice_exact c depth).follows
  | _, .lenient c default, depth => lenient_follows mode depth c default
  | _, .lenientOption c, depth => extract_lenientOption c ▸ lenientOption_follows mode depth c
  | _, .nullable s, depth => extract_nullable s ▸ (Schema.follows mode s depth).nullable
  | _, .list s, _ => extract_list s ▸ Follows.array (Schema.follows mode s)
  | _, .tolerant s, depth => extract_tolerant s ▸ (tolerant_exact s.extract depth).follows
  | _, .listOrNull s, depth =>
    extract_listOrNull s ▸ (Schema.follows mode s depth).nullable.map fun o => o.getD []
  | _, .dictionary, depth => extract_dictionary ▸ (dictionary_exact mode depth).follows
  | _, .record fields _, depth =>
    record_follows (Fields.member_follows mode fields) (Fields.elements_follow mode fields) depth
  | _, .extensible _ known, depth => extensible_follows (Schema.follows mode known) depth

theorem Fields.member_follows (mode : Resumption) : {τ σ : Type} → (fields : Fields τ σ) →
    (depth : Nat) → MemberFollows depth fields.tameMember
      (fun name read => fields.readMember mode depth name read) fields.extractMember
  | _, _, .nil, depth => by
    intro name json read colonText item rest w read' w' hcolon hspelled hdepth htame hx
    obtain ⟨-, rfl⟩ := pure_eq_ok_iff.1 hx
    exact readMember_nil_eq_ok_iff.2 ⟨item, hcolon, skip_of_spelled hspelled⟩
  | _, _, .cons name aliases schema presence others, depth => by
    intro given json read colonText item rest w read' w' hcolon hspelled hdepth htame hx
    obtain ⟨known, read⟩ := read
    apply readMember_cons_eq_ok_iff.2
    simp only [Fields.extractMember] at hx
    simp only [Fields.tameMember] at htame
    by_cases hname : given = name ∨ given ∈ aliases
    · rw [if_pos hname] at hx htame
      cases known with
      | some a => exact absurd hx throw_ne_ok
      | none =>
        obtain ⟨a, w₁, ha, hx⟩ := bind_eq_ok_iff.1 hx
        obtain ⟨rfl, rfl⟩ := pure_eq_ok_iff.1 hx
        have hread := Schema.follows mode schema depth _ _ _ _ _ _ hspelled hdepth htame ha
        exact .inl ⟨hname, rfl, item, a, hcolon, hread, rfl⟩
    · rw [if_neg hname] at hx htame
      obtain ⟨taken, w₁, htaken, hx⟩ := bind_eq_ok_iff.1 hx
      obtain ⟨rfl, rfl⟩ := pure_eq_ok_iff.1 hx
      have hread :=
        Fields.member_follows mode others depth _ _ _ _ _ _ _ _ _ hcolon hspelled hdepth htame htaken
      exact .inr ⟨hname, taken, hread, rfl⟩

theorem Fields.elements_follow (mode : Resumption) : {τ σ : Type} → (fields : Fields τ σ) →
    (depth : Nat) → ElementsFollow depth fields.tameElements (fields.readElements mode depth)
      fields.extractElements
  | _, _, .nil, _ => by
    intro items first text rest w a w' hspelled hdepths htame hx
    cases items with
    | cons json items => exact absurd hx throw_ne_ok
    | nil =>
      obtain ⟨rfl, rfl⟩ := pure_eq_ok_iff.1 hx
      exact ⟨⟨text, w⟩, rfl, closeArray_eq_ok_iff.2 ⟨rest, hspelled, rfl⟩⟩
  | _, _, .cons name aliases schema presence others, depth => by
    intro items first text rest w a w' hspelled hdepths htame hx
    simp only [Fields.extractElements] at hx
    simp only [Fields.tameElements] at htame
    cases items with
    | nil =>
      have hbracket : Next ']' text rest := hspelled
      have hclose : closeArray ⟨unspaced text, w'⟩ = .ok () ⟨rest, w'⟩ :=
        closeArray_eq_ok_iff.2 ⟨rest, next_unspaced_iff.2 hbracket, rfl⟩
      -- what the array leaves out is what the fields that are absent have
      cases habsent : presence.absent? with
      | none =>
        simp only [habsent] at hx
        exact absurd hx throw_ne_ok
      | some b =>
        cases hothers : others.absent? with
        | none =>
          simp only [habsent, hothers] at hx
          exact absurd hx throw_ne_ok
        | some parts =>
          simp only [habsent, hothers] at hx
          obtain ⟨rfl, rfl⟩ := pure_eq_ok_iff.1 hx
          refine ⟨⟨unspaced text, w⟩, readElements_cons_eq_ok_iff.2 (.inl ?_), hclose⟩
          exact ⟨rest, hbracket, b, parts, habsent, hothers, rfl, rfl⟩
    | cons json items =>
      obtain ⟨item, behind, hlead, hjson, hspelled⟩ := hspelled
      obtain ⟨b, w₁, hb, hx⟩ := bind_eq_ok_iff.1 hx
      obtain ⟨parts, w₂, hparts, hx⟩ := bind_eq_ok_iff.1 hx
      obtain ⟨rfl, rfl⟩ := pure_eq_ok_iff.1 hx
      rw [Bool.and_eq_true] at htame
      rw [List.forall_mem_cons] at hdepths
      have hread := Schema.follows mode schema depth _ _ _ _ _ _
        (Json.spelled_unspaced_iff.2 hjson) hdepths.1 htame.1 hb
      obtain ⟨c₁, hothers, hclose⟩ := Fields.elements_follow mode others depth _ _ _ _ _ _ _
        hspelled hdepths.2 htame.2 hparts
      obtain ⟨ch, t, hnext, hopens⟩ := hjson.opens
      have hne : ch ≠ ']' := by
        rintro rfl
        exact Json.not_opens_closing hopens
      refine ⟨c₁, readElements_cons_eq_ok_iff.2 (.inr ?_), hclose⟩
      exact ⟨item, ⟨ch, t, hnext, hne⟩, hlead, b, _, hread, parts, hothers, rfl⟩

end

end CredentialCeremony
