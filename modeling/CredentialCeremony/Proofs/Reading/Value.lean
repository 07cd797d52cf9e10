import CredentialCeremony.Proofs.Json.Spelling
import CredentialCeremony.Proofs.Reading.Loop

set_option autoImplicit false

/-!
# Reading whole values

A reader is exact if it succeeds on exactly the texts that spell a value out of which its result can
be taken (`Reader.Exact`). Arrays of what an exact reader reads are read exactly
(`Exact.elements_close_iff`), and so is a whole value (`value_exact`). A text therefore spells at
most one value (`Json.Spelled.unique`).
-/

namespace CredentialCeremony.Reader

open Grammar

variable {α σ : Type}

/-- The reader succeeds exactly if a value of at most the given depth is spelled and gives the
result, and it ends behind that value. -/
def Exact (depth : Nat) (r : Reader α) (x : Json → Extractor α) : Prop :=
  ∀ c a c', r c = .ok a c' ↔
    ∃ json, json.Spelled c.rest c'.rest ∧ json.depth ≤ depth ∧
      x json c.warnings = .ok a c'.warnings

/-- The reader of what stands behind a name succeeds exactly if a colon stands there and behind it a
value of at most the given depth, out of which the new state can be taken. -/
def ExactMember (depth : Nat) (member : String → σ → Reader σ)
    (x : String → Json → σ → Extractor σ) : Prop :=
  ∀ name s c s' c', member name s c = .ok s' c' ↔
    ∃ item json, Next ':' c.rest item ∧ json.Spelled item c'.rest ∧ json.depth ≤ depth ∧
      x name json s c.warnings = .ok s' c'.warnings

/-- The rest of a word is read behind its first character exactly if the word stands there. -/
theorem word_eq_ok_iff (full rest : String) {ch : Char} {text t : Bytes}
    {w : List TimeoutWarning} {c' : Cursor} {u : Unit} (hnext : Next ch text t)
    (hfull : full.toList = ch :: rest.toList) :
    word rest ⟨t, w⟩ = .ok u c' ↔ Word full (unspaced text) c'.rest ∧ c'.warnings = w := by
  rw [word]
  rw [scan_eq_ok_iff, word_unspaced_iff hfull, Json.exists_next_iff hnext]

/-- What is answered behind a word is answered exactly if the word stands there. -/
theorem behind_word_eq_ok_iff (full rest : String) {ch : Char} {answer a : α} {text t : Bytes}
    {w : List TimeoutWarning} {c' : Cursor} (hnext : Next ch text t)
    (hfull : full.toList = ch :: rest.toList) :
    (do advance; word rest; return answer : Reader α) ⟨unspaced text, w⟩ = .ok a c' ↔
      Word full (unspaced text) c'.rest ∧ c'.warnings = w ∧ answer = a := by
  rw [bind_of_ok (advance_of_next hnext), bind_eq_ok_iff]
  simp only [word_eq_ok_iff full rest hnext hfull, pure_eq_ok_iff]
  constructor
  · rintro ⟨u, c₁, ⟨hword, hwarnings⟩, hanswer, rfl⟩
    exact ⟨hword, hwarnings, hanswer⟩
  · rintro ⟨hword, hwarnings, hanswer⟩
    exact ⟨(), c', ⟨hword, hwarnings⟩, hanswer, rfl⟩

/-- A word that stands for a value. -/
theorem word_scalar_eq_ok_iff {ch : Char} {full rest : String} {json j : Json} {text t : Bytes}
    {w : List TimeoutWarning} {c' : Cursor} (hnext : Next ch text t)
    (hfull : full.toList = ch :: rest.toList) (hopens : ∀ j : Json, j.Opens ch ↔ j = json)
    (hspelled : ∀ text rest, json.Spelled text rest ↔ Word full (unspaced text) rest) :
    (do advance; word rest; return json : Reader Json) ⟨unspaced text, w⟩ = .ok j c' ↔
      j.Spelled text c'.rest ∧ c'.warnings = w := by
  rw [behind_word_eq_ok_iff full rest hnext hfull, ← hspelled]
  constructor
  · rintro ⟨h, hwarnings, rfl⟩
    exact ⟨h, hwarnings⟩
  · rintro ⟨h, hwarnings⟩
    -- only one value opens with this character
    obtain rfl := (hopens j).1 (h.opens_of_next hnext)
    exact ⟨h, hwarnings, rfl⟩

/-- A scalar is read exactly if it is spelled. -/
theorem scalar_eq_ok_iff {ch : Char} {text t : Bytes} {warnings : List TimeoutWarning}
    {r : Reader Json} {json : Json} {c' : Cursor} (hnext : Next ch text t)
    (hr : scalar? ch = some r) : r ⟨unspaced text, warnings⟩ = .ok json c' ↔
      json.Spelled text c'.rest ∧ c'.warnings = warnings := by
  -- one case for each character that starts a scalar
  unfold scalar? at hr
  split at hr
  · cases hr
    exact word_scalar_eq_ok_iff hnext rfl (fun _ => Json.opens_n_iff) fun _ _ => Iff.rfl
  · cases hr
    exact word_scalar_eq_ok_iff hnext rfl (fun _ => Json.opens_t_iff) fun _ _ => Iff.rfl
  · cases hr
    exact word_scalar_eq_ok_iff hnext rfl (fun _ => Json.opens_f_iff) fun _ _ => Iff.rfl
  · cases hr
    rw [bind_of_ok (advance_of_next hnext), bind_eq_ok_iff]
    simp only [numeral, scan_eq_ok_iff, pure_eq_ok_iff]
    constructor
    · rintro ⟨n, c₁, ⟨hscan, hwarnings⟩, rfl, rfl⟩
      exact ⟨(Json.number_spelled_minus_iff hnext).2 hscan, hwarnings⟩
    · rintro ⟨h, hwarnings⟩
      obtain ⟨n, rfl⟩ := Json.opens_minus_iff.1 (h.opens_of_next hnext)
      exact ⟨n, c', ⟨(Json.number_spelled_minus_iff hnext).1 h, hwarnings⟩, rfl, rfl⟩
  · cases hr
    rw [bind_of_ok (advance_of_next hnext), bind_eq_ok_iff]
    simp only [stringBody_eq_ok_iff, pure_eq_ok_iff]
    constructor
    · rintro ⟨s, c₁, ⟨hchars, hwarnings⟩, rfl, rfl⟩
      exact ⟨⟨t, hnext, hchars⟩, hwarnings⟩
    · rintro ⟨h, hwarnings⟩
      obtain ⟨s, rfl⟩ := Json.opens_mark_iff.1 (h.opens_of_next hnext)
      exact ⟨s, c', ⟨(Json.exists_next_iff hnext).1 h, hwarnings⟩, rfl, rfl⟩
  · split at hr
    · cases hr
      rename_i hdigit
      rw [bind_eq_ok_iff]
      simp only [numeral, scan_eq_ok_iff, pure_eq_ok_iff]
      constructor
      · rintro ⟨n, c₁, ⟨hscan, hwarnings⟩, rfl, rfl⟩
        exact ⟨(Json.number_spelled_digit_iff hnext hdigit).2 hscan, hwarnings⟩
      · rintro ⟨h, hwarnings⟩
        obtain ⟨n, rfl⟩ := (Json.opens_digit_iff hdigit).1 (h.opens_of_next hnext)
        exact ⟨n, c', ⟨(Json.number_spelled_digit_iff hnext hdigit).1 h, hwarnings⟩, rfl, rfl⟩
    · cases hr

/-- The scalars are the values that hold no other value. -/
theorem isSome_scalar?_iff {ch : Char} {json : Json} (h : json.Opens ch) :
    (scalar? ch).isSome = true ↔ json.depth = 0 := by
  cases json with
  | null => cases h; exact iff_of_true rfl rfl
  | bool b => cases h; cases b <;> exact iff_of_true rfl rfl
  | number n =>
    refine iff_of_true ?_ rfl
    rcases h with rfl | h
    · rfl
    · unfold scalar?
      split <;> simp [h]
  | string s => cases h; exact iff_of_true rfl rfl
  | array items => cases h; exact iff_of_false (by decide) (by simp [Json.depth])
  | object members => cases h; exact iff_of_false (by decide) (by simp [Json.depth])

theorem scalarOr_eq_ok_iff {nested : Char → Reader Json} {c c' : Cursor} {json : Json} :
    scalarOr nested c = .ok json c' ↔ ∃ ch t, Next ch c.rest t ∧
      (((scalar? ch).isSome = true ∧ json.Spelled c.rest c'.rest ∧ c'.warnings = c.warnings) ∨
        (scalar? ch = none ∧ nested ch ⟨unspaced c.rest, c.warnings⟩ = .ok json c')) := by
  rw [scalarOr]
  rcases nil_or_next c.rest with hnil | ⟨ch, t, hnext⟩
  · rw [peek_bind_of_nil hnil]
    apply iff_of_false fail_ne_ok
    rintro ⟨ch, t, hnext, -⟩
    exact not_next_of_nil hnil hnext
  · rw [peek_bind_of_next hnext]
    -- the next character is the only one
    have hch : (∃ ch' t', Next ch' c.rest t' ∧
        (((scalar? ch').isSome = true ∧ json.Spelled c.rest c'.rest ∧ c'.warnings = c.warnings) ∨
          (scalar? ch' = none ∧ nested ch' ⟨unspaced c.rest, c.warnings⟩ = .ok json c'))) ↔
        (((scalar? ch).isSome = true ∧ json.Spelled c.rest c'.rest ∧ c'.warnings = c.warnings) ∨
          (scalar? ch = none ∧ nested ch ⟨unspaced c.rest, c.warnings⟩ = .ok json c')) := by
      constructor
      · rintro ⟨ch', t', hnext', h⟩
        rwa [(hnext.unique hnext').1]
      · intro h
        exact ⟨ch, t, hnext, h⟩
    rw [hch]
    cases hscalar : scalar? ch with
    | none => simp [hscalar]
    | some r => simp [hscalar, scalar_eq_ok_iff hnext hscalar]

/-! ## Arrays and objects -/

theorem all_cons_eq_ok_iff {x : Json → Extractor α} {json : Json} {items : List Json}
    {as : List α} {w w' : List TimeoutWarning} :
    Extractor.all x (json :: items) w = .ok as w' ↔
      ∃ a w₁ others, x json w = .ok a w₁ ∧ Extractor.all x items w₁ = .ok others w' ∧
        as = a :: others := by
  rw [Extractor.all, bind_eq_ok_iff]
  simp only [bind_eq_ok_iff, pure_eq_ok_iff]
  grind

theorem all_length {x : Json → Extractor α} {items : List Json} {as : List α}
    {w w' : List TimeoutWarning} (h : Extractor.all x items w = .ok as w') :
    as.length = items.length := by
  induction items generalizing as w with
  | nil =>
    obtain ⟨rfl, -⟩ := pure_eq_ok_iff.1 h
    rfl
  | cons json items ih =>
    obtain ⟨a, w₁, others, -, hothers, rfl⟩ := all_cons_eq_ok_iff.1 h
    rw [List.length_cons, List.length_cons, ih hothers]

/-- Where elements are spelled and each is read, the rounds over them succeed. -/
theorem elementRounds_of_spelled {r : Reader α} {x : Json → Extractor α} {items : List Json}
    {first : Bool} {text rest : Bytes} {w w' : List TimeoutWarning} {as : List α}
    (hread : ∀ json ∈ items, ∀ item behind w a w', json.Spelled item behind →
      x json w = .ok a w' → r ⟨item, w⟩ = .ok a ⟨behind, w'⟩)
    (hitems : Json.ItemsSpelled items first text rest) (hall : Extractor.all x items w = .ok as w') :
    ∃ c₁, ElementRounds r first ⟨text, w⟩ as c₁ ∧ closeArray c₁ = .ok () ⟨rest, w'⟩ := by
  induction items generalizing first text w as with
  | nil =>
    obtain ⟨rfl, rfl⟩ := pure_eq_ok_iff.1 hall
    have hclose : Next ']' text rest := hitems
    refine ⟨_, ⟨⟨rest, hclose⟩, rfl⟩, ?_⟩
    exact closeArray_eq_ok_iff.2 ⟨rest, next_unspaced_iff.2 hclose, rfl⟩
  | cons json items ih =>
    obtain ⟨item, behind, hlead, hitem, hitems⟩ := hitems
    obtain ⟨a, w₁, others, ha, hothers, rfl⟩ := all_cons_eq_ok_iff.1 hall
    rw [List.forall_mem_cons] at hread
    obtain ⟨c₁, hrounds, hclose⟩ := ih hread.2 hitems hothers
    obtain ⟨ch, t, hnext, hopens⟩ := hitem.opens
    -- what opens a value does not close an array
    have hne : ch ≠ ']' := by
      rintro rfl
      exact Json.not_opens_closing hopens
    have hjson := hread.1 _ _ _ _ _ (Json.spelled_unspaced_iff.2 hitem) ha
    exact ⟨c₁, ⟨item, _, hlead, ⟨ch, t, hnext, hne⟩, hjson, hrounds⟩, hclose⟩

/-- Where the rounds of an exact reader succeed, elements are spelled. -/
theorem Exact.spelled_of_elementRounds {depth : Nat} {r : Reader α} {x : Json → Extractor α}
    (hr : Exact depth r x) {first : Bool} {c c₁ c' : Cursor} {as : List α}
    (hrounds : ElementRounds r first c as c₁) (hclose : closeArray c₁ = .ok () c') :
    ∃ items, Json.ItemsSpelled items first c.rest c'.rest ∧
      (∀ json ∈ items, json.depth ≤ depth) ∧
        Extractor.all x items c.warnings = .ok as c'.warnings := by
  -- on the results, of which there is one for each round
  induction as generalizing first c with
  | nil =>
    obtain ⟨-, rfl⟩ := hrounds
    obtain ⟨rest, hbracket, rfl⟩ := closeArray_eq_ok_iff.1 hclose
    exact ⟨[], next_unspaced_iff.1 hbracket, by simp, rfl⟩
  | cons a as ih =>
    obtain ⟨item, c₂, hlead, -, ha, hrounds⟩ := hrounds
    obtain ⟨json, hjson, hdepth, hx⟩ := (hr _ _ _).1 ha
    obtain ⟨items, hitems, hdepths, hall⟩ := ih hrounds
    refine ⟨json :: items, ⟨item, c₂.rest, hlead, Json.spelled_unspaced_iff.1 hjson, hitems⟩, ?_, ?_⟩
    · exact List.forall_mem_cons.2 ⟨hdepth, hdepths⟩
    · exact all_cons_eq_ok_iff.2 ⟨a, c₂.warnings, as, hx, hall, rfl⟩

/-- Elements are read exactly if each is. -/
theorem Exact.elements_close_iff {depth : Nat} {r : Reader α} {x : Json → Extractor α}
    (hr : Exact depth r x) {c c' : Cursor} {as : List α} :
    (∃ c₁, elements r c = .ok as c₁ ∧ closeArray c₁ = .ok () c') ↔
      ∃ items, Json.ItemsSpelled items true c.rest c'.rest ∧
        (∀ json ∈ items, json.depth ≤ depth) ∧
          Extractor.all x items c.warnings = .ok as c'.warnings := by
  constructor
  · rintro ⟨c₁, helements, hclose⟩
    exact hr.spelled_of_elementRounds (elements_eq_ok_iff.1 helements).1 hclose
  · rintro ⟨items, hitems, hdepths, hall⟩
    have hread (json : Json) (hmem : json ∈ items) (item behind : Bytes)
        (w : List TimeoutWarning) (a : α) (w' : List TimeoutWarning)
        (hjson : json.Spelled item behind) (hx : x json w = .ok a w') :
        r ⟨item, w⟩ = .ok a ⟨behind, w'⟩ :=
      (hr _ _ _).2 ⟨json, hjson, hdepths json hmem, hx⟩
    obtain ⟨c₁, hrounds, hclose⟩ := elementRounds_of_spelled hread hitems hall
    -- the clock is the text, and each element takes a byte of it
    have hlength := Json.ItemsSpelled.length_lt hitems
    rw [← all_length hall] at hlength
    exact ⟨c₁, elements_eq_ok_iff.2 ⟨hrounds, by omega⟩, hclose⟩

/-- What a tree gives for its members in order. -/
def overMembers (x : String → Json → σ → Extractor σ) (members : List (String × Json)) (s : σ) :
    Extractor σ :=
  members.foldlM (fun s member => x member.1 member.2 s) s

theorem overMembers_cons_eq_ok_iff {x : String → Json → σ → Extractor σ} {name : String}
    {json : Json} {members : List (String × Json)} {s s' : σ} {w w' : List TimeoutWarning} :
    overMembers x ((name, json) :: members) s w = .ok s' w' ↔
      ∃ s₁ w₁, x name json s w = .ok s₁ w₁ ∧ overMembers x members s₁ w₁ = .ok s' w' := by
  unfold overMembers
  rw [List.foldlM_cons, bind_eq_ok_iff]

/-- Where members are spelled and each is read, the rounds over them succeed. -/
theorem memberRounds_of_spelled {member : String → σ → Reader σ}
    {x : String → Json → σ → Extractor σ} {members : List (String × Json)} {first : Bool}
    {text rest : Bytes} {w w' : List TimeoutWarning} {s s' : σ}
    (hread : ∀ m ∈ members, ∀ colon item behind s w s' w', Next ':' colon item →
      m.2.Spelled item behind → x m.1 m.2 s w = .ok s' w' →
        member m.1 s ⟨colon, w⟩ = .ok s' ⟨behind, w'⟩)
    (hmembers : Json.MembersSpelled members first text rest)
    (hover : overMembers x members s w = .ok s' w') :
    ∃ c₁, MemberRounds member first s ⟨text, w⟩ (members.map Prod.fst) s' c₁ ∧
      closeObject c₁ = .ok () ⟨rest, w'⟩ := by
  induction members generalizing first text w s with
  | nil =>
    obtain ⟨rfl, rfl⟩ := pure_eq_ok_iff.1 hover
    have hclose : Next '\x7d' text rest := hmembers
    refine ⟨_, ⟨rfl, ⟨rest, hclose⟩, rfl⟩, ?_⟩
    exact closeObject_eq_ok_iff.2 ⟨rest, next_unspaced_iff.2 hclose, rfl⟩
  | cons m members ih =>
    obtain ⟨name, json⟩ := m
    obtain ⟨start, quoted, colon, item, behind, hlead, hmark, hname, hcolon, hitem, hmembers⟩ :=
      hmembers
    obtain ⟨s₁, w₁, hx, hover⟩ := overMembers_cons_eq_ok_iff.1 hover
    rw [List.forall_mem_cons] at hread
    obtain ⟨c₁, hrounds, hclose⟩ := ih hread.2 hmembers hover
    have hjson := hread.1 _ _ _ _ _ _ _ hcolon hitem hx
    exact ⟨c₁, ⟨start, quoted, colon, s₁, _, hlead, hmark, hname, hjson, hrounds⟩, hclose⟩

/-- Where the rounds of an exact reader succeed, members are spelled. -/
theorem ExactMember.spelled_of_memberRounds {depth : Nat} {member : String → σ → Reader σ}
    {x : String → Json → σ → Extractor σ} (hr : ExactMember depth member x) {first : Bool}
    {c c₁ c' : Cursor} {names : List String} {s s' : σ}
    (hrounds : MemberRounds member first s c names s' c₁) (hclose : closeObject c₁ = .ok () c') :
    ∃ members, Json.MembersSpelled members first c.rest c'.rest ∧
      (∀ m ∈ members, m.2.depth ≤ depth) ∧
        overMembers x members s c.warnings = .ok s' c'.warnings := by
  -- on the names, of which there is one for each round
  induction names generalizing first c s with
  | nil =>
    obtain ⟨rfl, -, rfl⟩ := hrounds
    obtain ⟨rest, hbrace, rfl⟩ := closeObject_eq_ok_iff.1 hclose
    exact ⟨[], next_unspaced_iff.1 hbrace, by simp, rfl⟩
  | cons name names ih =>
    obtain ⟨start, quoted, behind, s₁, c₂, hlead, hmark, hname, hmember, hrounds⟩ := hrounds
    obtain ⟨item, json, hcolon, hjson, hdepth, hx⟩ := (hr _ _ _ _ _).1 hmember
    obtain ⟨members, hmembers, hdepths, hover⟩ := ih hrounds
    refine ⟨(name, json) :: members,
      ⟨start, quoted, behind, item, c₂.rest, hlead, hmark, hname, hcolon, hjson, hmembers⟩, ?_, ?_⟩
    · exact List.forall_mem_cons.2 ⟨hdepth, hdepths⟩
    · exact overMembers_cons_eq_ok_iff.2 ⟨s₁, c₂.warnings, hx, hover⟩

/-- Members are read exactly if each is. -/
theorem ExactMember.members_close_iff {depth : Nat} {member : String → σ → Reader σ}
    {x : String → Json → σ → Extractor σ} (hr : ExactMember depth member x) {c c' : Cursor}
    {s s' : σ} :
    (∃ c₁, members member s c = .ok s' c₁ ∧ closeObject c₁ = .ok () c') ↔
      ∃ members, Json.MembersSpelled members true c.rest c'.rest ∧
        (∀ m ∈ members, m.2.depth ≤ depth) ∧
          overMembers x members s c.warnings = .ok s' c'.warnings := by
  constructor
  · rintro ⟨c₁, hmembers, hclose⟩
    obtain ⟨names, hrounds, -⟩ := members_eq_ok_iff.1 hmembers
    exact hr.spelled_of_memberRounds hrounds hclose
  · rintro ⟨ms, hmembers, hdepths, hover⟩
    have hread (m : String × Json) (hmem : m ∈ ms) (colon item behind : Bytes) (s : σ)
        (w : List TimeoutWarning) (s' : σ) (w' : List TimeoutWarning) (hcolon : Next ':' colon item)
        (hjson : m.2.Spelled item behind) (hx : x m.1 m.2 s w = .ok s' w') :
        member m.1 s ⟨colon, w⟩ = .ok s' ⟨behind, w'⟩ :=
      (hr _ _ _ _ _).2 ⟨item, m.2, hcolon, hjson, hdepths m hmem, hx⟩
    obtain ⟨c₁, hrounds, hclose⟩ := memberRounds_of_spelled hread hmembers hover
    -- the clock is the text, and each member takes a byte of it
    have hlength := Json.MembersSpelled.length_lt hmembers
    rw [← List.length_map Prod.fst] at hlength
    exact ⟨c₁, members_eq_ok_iff.2 ⟨_, hrounds, by omega⟩, hclose⟩

/-! ## Whole values -/

theorem all_pure {items : List Json} {as : List Json} {w w' : List TimeoutWarning} :
    Extractor.all pure items w = .ok as w' ↔ items = as ∧ w = w' := by
  induction items generalizing as w with
  | nil => exact pure_eq_ok_iff
  | cons json items ih =>
    rw [all_cons_eq_ok_iff]
    simp only [ih, pure_eq_ok_iff]
    grind

theorem overMembers_take {members taken taken' : List (String × Json)}
    {w w' : List TimeoutWarning} :
    overMembers (fun name json taken => pure ((name, json) :: taken)) members taken w =
        .ok taken' w' ↔ members.reverse ++ taken = taken' ∧ w = w' := by
  -- the members are gathered from behind
  induction members generalizing taken w with
  | nil => exact pure_eq_ok_iff
  | cons m members ih =>
    obtain ⟨name, json⟩ := m
    rw [overMembers_cons_eq_ok_iff]
    simp only [ih, pure_eq_ok_iff, List.reverse_cons, List.append_assoc, List.singleton_append]
    grind

/-- An array is read exactly if it is spelled and its elements are not too deep. -/
theorem arrayOf_eq_ok_iff {depth : Nat} {item : Reader Json} (hitem : Exact depth item pure)
    {text t : Bytes} {w : List TimeoutWarning} {c' : Cursor} {json : Json}
    (hnext : Next '[' text t) : arrayOf item ⟨unspaced text, w⟩ = .ok json c' ↔
      json.Spelled text c'.rest ∧ json.depth ≤ depth + 1 ∧ c'.warnings = w := by
  rw [arrayOf]
  rw [bind_of_ok (advance_of_next hnext), closedBy_eq_ok_iff]
  simp only [bind_eq_ok_iff, pure_eq_ok_iff]
  constructor
  · rintro ⟨c₁, ⟨items, _, helements, rfl, rfl⟩, hclose⟩
    obtain ⟨items', hitems, hdepths, hall⟩ := hitem.elements_close_iff.1 ⟨_, helements, hclose⟩
    obtain ⟨rfl, rfl⟩ := all_pure.1 hall
    refine ⟨⟨t, hnext, hitems⟩, ?_, rfl⟩
    exact Nat.succ_le_succ (Json.itemsDepth_le_iff.2 hdepths)
  -- the bracket tells that it is an array that is spelled
  · rintro ⟨h, hdepth, hwarnings⟩
    obtain ⟨items, rfl⟩ := Json.opens_bracket_iff.1 (h.opens_of_next hnext)
    have hitems := (Json.exists_next_iff hnext).1 h
    have hdepths := Json.itemsDepth_le_iff.1 (Nat.le_of_succ_le_succ hdepth)
    obtain ⟨c₁, helements, hclose⟩ := (hitem.elements_close_iff (c := ⟨t, w⟩)).2
      ⟨items, hitems, hdepths, all_pure.2 ⟨rfl, hwarnings.symm⟩⟩
    exact ⟨c₁, ⟨items, c₁, helements, rfl, rfl⟩, hclose⟩

theorem exactMember_take {depth : Nat} {item : Reader Json} (hitem : Exact depth item pure) :
    ExactMember depth (fun name taken => do
      colon
      let json ← item
      return (name, json) :: taken) fun name json taken => pure ((name, json) :: taken) := by
  intro name taken c taken' c'
  simp only [bind_eq_ok_iff, colon_eq_ok_iff, pure_eq_ok_iff, hitem _ _ _]
  grind

/-- An object is read exactly if it is spelled and its members are not too deep. -/
theorem objectOf_eq_ok_iff {depth : Nat} {item : Reader Json} (hitem : Exact depth item pure)
    {text t : Bytes} {w : List TimeoutWarning} {c' : Cursor} {json : Json}
    (hnext : Next '\x7b' text t) : objectOf item ⟨unspaced text, w⟩ = .ok json c' ↔
      json.Spelled text c'.rest ∧ json.depth ≤ depth + 1 ∧ c'.warnings = w := by
  rw [objectOf]
  rw [bind_of_ok (advance_of_next hnext), closedBy_eq_ok_iff]
  simp only [bind_eq_ok_iff, pure_eq_ok_iff]
  constructor
  · rintro ⟨c₁, ⟨taken, _, htaken, rfl, rfl⟩, hclose⟩
    obtain ⟨members, hmembers, hdepths, hover⟩ :=
      (exactMember_take hitem).members_close_iff.1 ⟨_, htaken, hclose⟩
    obtain ⟨rfl, rfl⟩ := overMembers_take.1 hover
    rw [List.append_nil, List.reverse_reverse]
    refine ⟨⟨t, hnext, hmembers⟩, ?_, rfl⟩
    exact Nat.succ_le_succ (Json.membersDepth_le_iff.2 hdepths)
  -- the brace tells that it is an object that is spelled
  · rintro ⟨h, hdepth, hwarnings⟩
    obtain ⟨members, rfl⟩ := Json.opens_brace_iff.1 (h.opens_of_next hnext)
    have hmembers := (Json.exists_next_iff hnext).1 h
    have hdepths := Json.membersDepth_le_iff.1 (Nat.le_of_succ_le_succ hdepth)
    obtain ⟨c₁, htaken, hclose⟩ := ((exactMember_take hitem).members_close_iff (c := ⟨t, w⟩)).2
      ⟨members, hmembers, hdepths, overMembers_take.2 ⟨rfl, hwarnings.symm⟩⟩
    refine ⟨c₁, ⟨_, c₁, htaken, ?_, rfl⟩, hclose⟩
    rw [List.append_nil, List.reverse_reverse]

/-- A whole value is read exactly if it is spelled and not too deep. -/
theorem value_exact (depth : Nat) : Exact depth (value depth) pure := by
  -- what a scalar is made of is never too deep
  have hscalar {ch : Char} {t : Bytes} {c c' : Cursor} {json : Json} (hnext : Next ch c.rest t)
      (h : json.Spelled c.rest c'.rest) (hch : (scalar? ch).isSome = true) : json.depth = 0 :=
    (isSome_scalar?_iff (h.opens_of_next hnext)).1 hch
  -- one level of nesting uses the reader of one level less for what it holds
  induction depth with
  | zero =>
    intro c json c'
    rw [value, scalarOr_eq_ok_iff]
    simp only [pure_eq_ok_iff]
    constructor
    · rintro ⟨ch, t, hnext, ⟨hch, h, hwarnings⟩ | ⟨-, h⟩⟩
      · exact ⟨json, h, Nat.le_of_eq (hscalar hnext h hch), rfl, hwarnings.symm⟩
      · exact absurd h fail_ne_ok
    · rintro ⟨json, h, hdepth, rfl, hwarnings⟩
      obtain ⟨ch, t, hnext, hopens⟩ := h.opens
      have hch := (isSome_scalar?_iff hopens).2 (Nat.le_zero.1 hdepth)
      exact ⟨ch, t, hnext, .inl ⟨hch, h, hwarnings.symm⟩⟩
  | succ depth ih =>
    intro c json c'
    rw [value, scalarOr_eq_ok_iff]
    simp only [pure_eq_ok_iff]
    constructor
    · rintro ⟨ch, t, hnext, ⟨hch, h, hwarnings⟩ | ⟨-, h⟩⟩
      · exact ⟨json, h, by rw [hscalar hnext h hch]; omega, rfl, hwarnings.symm⟩
      · split at h
        · obtain ⟨h, hdepth, hwarnings⟩ := (arrayOf_eq_ok_iff ih hnext).1 h
          exact ⟨json, h, hdepth, rfl, hwarnings.symm⟩
        · obtain ⟨h, hdepth, hwarnings⟩ := (objectOf_eq_ok_iff ih hnext).1 h
          exact ⟨json, h, hdepth, rfl, hwarnings.symm⟩
        · exact absurd h fail_ne_ok
    · rintro ⟨json, h, hdepth, rfl, hwarnings⟩
      obtain ⟨ch, t, hnext, hopens⟩ := h.opens
      refine ⟨ch, t, hnext, ?_⟩
      -- the value that is spelled tells which branch is taken
      cases json with
      | array items =>
        cases hopens
        exact .inr ⟨rfl, (arrayOf_eq_ok_iff ih hnext).2 ⟨h, hdepth, hwarnings.symm⟩⟩
      | object members =>
        cases hopens
        exact .inr ⟨rfl, (objectOf_eq_ok_iff ih hnext).2 ⟨h, hdepth, hwarnings.symm⟩⟩
      | _ => exact .inl ⟨(isSome_scalar?_iff hopens).2 rfl, h, hwarnings.symm⟩

end CredentialCeremony.Reader

namespace CredentialCeremony.Json

/-- A text spells one value at most, and it ends in one place. -/
theorem Spelled.unique {j₁ j₂ : Json} {text r₁ r₂ : Bytes} (h₁ : j₁.Spelled text r₁)
    (h₂ : j₂.Spelled text r₂) : j₁ = j₂ ∧ r₁ = r₂ := by
  -- a reader with room for both would read each of them, and it is a function
  have hread {json : Json} {rest : Bytes} (h : json.Spelled text rest)
      (hdepth : json.depth ≤ max j₁.depth j₂.depth) :
      Reader.value (max j₁.depth j₂.depth) ⟨text, []⟩ = .ok json ⟨rest, []⟩ :=
    (Reader.value_exact _ _ _ _).2 ⟨json, h, hdepth, rfl⟩
  have heq := (hread h₁ (Nat.le_max_left _ _)).symm.trans (hread h₂ (Nat.le_max_right _ _))
  cases heq
  exact ⟨rfl, rfl⟩

/-- The text spells the value, and behind it only white space stands. -/
def Fills (json : Json) (text : Bytes) : Prop :=
  ∃ rest, json.Spelled text rest ∧ unspaced rest = []

/-- A text that spells a value is a document. -/
theorem Fills.document {json : Json} {text : Bytes} (h : json.Fills text) :
    Grammar.Document text := by
  obtain ⟨rest, hspelled, hrest⟩ := h
  exact ⟨rest, hspelled.grammar, unspaced_eq_nil_iff.1 hrest⟩

end CredentialCeremony.Json

namespace CredentialCeremony.Reader

/-- A text is read as a tree exactly if it spells the tree and that is not too deep. -/
theorem run_value_eq_ok_iff {depth : Nat} {text : Bytes} {json : Json} :
    (run (value depth) text).outcome = .ok json ↔ json.Fills text ∧ json.depth ≤ depth := by
  rw [run_outcome_eq_ok_iff]
  constructor
  · rintro ⟨c, hread, hrest⟩
    obtain ⟨_, h, hdepth, hpure⟩ := (value_exact _ _ _ _).1 hread
    obtain ⟨rfl, -⟩ := pure_eq_ok_iff.1 hpure
    exact ⟨⟨c.rest, h, hrest⟩, hdepth⟩
  · rintro ⟨⟨rest, h, hrest⟩, hdepth⟩
    exact ⟨⟨rest, []⟩, (value_exact _ _ _ _).2 ⟨json, h, hdepth, rfl⟩, hrest⟩

end CredentialCeremony.Reader
