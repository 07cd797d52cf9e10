import CredentialCeremony.Proofs.Schema.Tame

set_option autoImplicit false

/-!
# Readers that have gone astray

A lenient choice that is not passed as a whole leaves the direct reader inside the value: either
where no array and no object goes on (`Stuck`), or behind a part of it, with containers of the value
still open (`Within`). In the second case the record around takes the closing of such a container
for its own. It may be misled by what follows, but the containers that it has not closed stay open,
so it never ends where the document does.

Main statement: a direct reader that succeeds on a document has read a tame one as a tree gives it,
or it has gone astray (`Schema.strays`).
-/

namespace CredentialCeremony.Reader

open Grammar

variable {α β σ : Type}

/-- What comes next neither continues nor ends an array or object. -/
def Stuck (text : Bytes) : Prop :=
  ∃ ch t, Next ch text t ∧ ch ∉ [',', ']', '\x7d']

/-- Behind an element or member that stands inside `n` open containers, the last of which ends in
front of `base`; no value that follows in them is deeper than `depth`. -/
inductive Within (depth : Nat) : Nat → Bytes → Bytes → Prop where
  | here {text : Bytes} : Within depth 0 text text
  | array {n : Nat} {items : List Json} {text mid base : Bytes} :
      Json.ItemsSpelled items false text mid → (∀ json ∈ items, json.depth ≤ depth) →
        Within depth n mid base → Within depth (n + 1) text base
  | object {n : Nat} {members : List (String × Json)} {text mid base : Bytes} :
      Json.MembersSpelled members false text mid → (∀ m ∈ members, m.2.depth ≤ depth) →
        Within depth n mid base → Within depth (n + 1) text base

/-- The reader of a value stands inside it, or where nothing goes on. -/
def Astray (depth : Nat) (text rest : Bytes) : Prop :=
  Stuck text ∨ ∃ n, Within depth (n + 1) text rest

theorem Within.trans {depth m n : Nat} {text mid base : Bytes} (h : Within depth m text mid)
    (hmore : Within depth n mid base) : Within depth (m + n) text base := by
  -- on the containers that are still open, from the inside out
  induction h with
  | here => rwa [Nat.zero_add]
  | array hitems hdepths _ ih =>
    rw [Nat.succ_add]
    exact .array hitems hdepths (ih hmore)
  | object hmembers hdepths _ ih =>
    rw [Nat.succ_add]
    exact .object hmembers hdepths (ih hmore)

theorem Within.mono {depth depth' n : Nat} {text base : Bytes} (h : Within depth n text base)
    (hle : depth ≤ depth') : Within depth' n text base := by
  induction h with
  | here => exact .here
  | array hitems hdepths _ ih =>
    exact .array hitems (fun json hmem => Nat.le_trans (hdepths json hmem) hle) ih
  | object hmembers hdepths _ ih =>
    exact .object hmembers (fun m hmem => Nat.le_trans (hdepths m hmem) hle) ih

/-- The innermost of the open containers, and those around it. -/
theorem Within.innermost {depth n : Nat} {text base : Bytes} (h : Within depth (n + 1) text base) :
    (∃ items mid, Json.ItemsSpelled items false text mid ∧ (∀ json ∈ items, json.depth ≤ depth) ∧
      Within depth n mid base) ∨
    (∃ members mid, Json.MembersSpelled members false text mid ∧
      (∀ m ∈ members, m.2.depth ≤ depth) ∧ Within depth n mid base) := by
  cases h with
  | array hitems hdepths hmore => exact .inl ⟨_, _, hitems, hdepths, hmore⟩
  | object hmembers hdepths hmore => exact .inr ⟨_, _, hmembers, hdepths, hmore⟩

/-- Behind an element, a comma or the closing bracket comes next. -/
theorem next_of_itemsSpelled {items : List Json} {text rest : Bytes}
    (h : Json.ItemsSpelled items false text rest) :
    ∃ t, (items = [] ∧ Next ']' text t) ∨ (items ≠ [] ∧ Next ',' text t) := by
  cases items with
  | nil => exact ⟨rest, .inl ⟨rfl, h⟩⟩
  | cons json items =>
    obtain ⟨item, behind, hlead, -⟩ := h
    exact ⟨item, .inr ⟨by simp, hlead⟩⟩

/-- Behind a member, a comma or the closing brace comes next. -/
theorem next_of_membersSpelled {members : List (String × Json)} {text rest : Bytes}
    (h : Json.MembersSpelled members false text rest) :
    ∃ t, (members = [] ∧ Next '\x7d' text t) ∨ (members ≠ [] ∧ Next ',' text t) := by
  cases members with
  | nil => exact ⟨rest, .inl ⟨rfl, h⟩⟩
  | cons m members =>
    obtain ⟨name, json⟩ := m
    obtain ⟨start, quoted, colon, item, behind, hlead, -⟩ := h
    exact ⟨start, .inr ⟨by simp, hlead⟩⟩

/-- Something is left inside open containers. -/
theorem Astray.unspaced_ne_nil {depth : Nat} {text rest : Bytes} (h : Astray depth text rest) :
    unspaced text ≠ [] := by
  intro hnil
  rcases h with ⟨ch, t, hnext, -⟩ | ⟨n, hwithin⟩
  · exact not_next_of_nil hnil hnext
  -- the innermost container still has to be closed, so a character of its own comes next
  · rcases hwithin.innermost with ⟨items, mid, hitems, -, -⟩ | ⟨members, mid, hmembers, -, -⟩
    · obtain ⟨t, ⟨-, hnext⟩ | ⟨-, hnext⟩⟩ := next_of_itemsSpelled hitems
      · exact not_next_of_nil hnil hnext
      · exact not_next_of_nil hnil hnext
    · obtain ⟨t, ⟨-, hnext⟩ | ⟨-, hnext⟩⟩ := next_of_membersSpelled hmembers
      · exact not_next_of_nil hnil hnext
      · exact not_next_of_nil hnil hnext

theorem stuck_unspaced_iff {text : Bytes} : Stuck (unspaced text) ↔ Stuck text := by
  simp [Stuck]

theorem within_unspaced_iff {depth n : Nat} {text base : Bytes} :
    Within depth (n + 1) (unspaced text) base ↔ Within depth (n + 1) text base := by
  constructor
  · intro h
    rcases h.innermost with ⟨items, mid, hitems, hdepths, hmore⟩ | ⟨ms, mid, hms, hdepths, hmore⟩
    · exact .array (Json.itemsSpelled_unspaced_iff.1 hitems) hdepths hmore
    · exact .object (Json.membersSpelled_unspaced_iff.1 hms) hdepths hmore
  · intro h
    rcases h.innermost with ⟨items, mid, hitems, hdepths, hmore⟩ | ⟨ms, mid, hms, hdepths, hmore⟩
    · exact .array (Json.itemsSpelled_unspaced_iff.2 hitems) hdepths hmore
    · exact .object (Json.membersSpelled_unspaced_iff.2 hms) hdepths hmore

/-- Nothing goes on where a value stands. -/
theorem Stuck.of_spelled {json : Json} {text rest : Bytes} (h : json.Spelled text rest) :
    Stuck text := by
  obtain ⟨ch, t, hnext, hopens⟩ := h.opens
  exact ⟨ch, t, hnext, fun hmem => Json.not_opens_of_mem hmem hopens⟩

/-- Nothing goes on where a colon stands. -/
theorem Stuck.of_colon {text rest : Bytes} (h : Next ':' text rest) : Stuck text :=
  ⟨':', rest, h, by decide⟩

/-- Where a reader succeeds on a value that is spelled, either the value is tame, a tree gives the
same for it and the reader ends behind it, or the reader has gone astray. Inside the value it can be
only if that holds others. -/
def Strays (depth : Nat) (tame : Json → Bool) (r : Reader α) (x : Json → Extractor α) : Prop :=
  ∀ json text rest w a c', json.Spelled text rest → json.depth ≤ depth →
    r ⟨text, w⟩ = .ok a c' →
      (tame json = true ∧ c'.rest = rest ∧ x json w = .ok a c'.warnings) ∨ Stuck c'.rest ∨
        (json.depth ≠ 0 ∧ ∃ n, Within depth (n + 1) c'.rest rest)

/-- An exact reader never goes astray. -/
theorem Exact.strays {depth : Nat} {tame : Json → Bool} {r : Reader α} {x : Json → Extractor α}
    (h : Exact depth r x) (htame : ∀ json a w w', x json w = .ok a w' → tame json = true) :
    Strays depth tame r x := by
  intro json text rest w a c' hspelled _ hread
  obtain ⟨j, hj, -, hx⟩ := (h _ _ _).1 hread
  obtain ⟨rfl, hrest⟩ := hj.unique hspelled
  exact .inl ⟨htame _ _ _ _ hx, hrest, hx⟩

/-! ## Lenient choices -/

/-- What starts no scalar is not passed. -/
theorem unexpected_of_next {ch : Char} {text t : Bytes} {w : List TimeoutWarning}
    (hnext : Next ch text t) (hscalar : scalar? ch = none) :
    (unexpected : Reader α) ⟨text, w⟩ = .error .malformed ⟨unspaced text, w⟩ := by
  rw [unexpected]
  rw [peek_bind_of_next hnext]
  simp only [hscalar]
  rfl

/-- Where a value stands that is not expected, it is passed if it is a scalar; an array or object is
not entered. -/
theorem unexpected_of_spelled {json : Json} {text rest : Bytes} {w : List TimeoutWarning}
    (h : json.Spelled text rest) : ∃ e c', (unexpected : Reader α) ⟨text, w⟩ = .error e c' ∧
      (c'.rest = rest ∨ Stuck c'.rest) := by
  obtain ⟨ch, t, hnext, hopens⟩ := h.opens
  cases hscalar : scalar? ch with
  -- an array or an object: the reader stays in front of it
  | none =>
    exact ⟨.malformed, _, unexpected_of_next hnext hscalar,
      .inr (stuck_unspaced_iff.2 (.of_spelled h))⟩
  -- a scalar: it is taken, and then refused behind its end
  | some scalar =>
    have hread : scalar ⟨unspaced text, w⟩ = .ok json ⟨rest, w⟩ :=
      (scalar_eq_ok_iff hnext hscalar).2 ⟨h, rfl⟩
    refine ⟨.malformed, ⟨rest, w⟩, ?_, .inl rfl⟩
    rw [unexpected]
    rw [peek_bind_of_next hnext]
    simp only [hscalar]
    exact bind_of_ok hread

/-- Behind the name of a choice, where something else than null stands, the reader fails behind it
or in front of it. -/
theorem choiceNull_of_spelled {json : Json} {text rest : Bytes} {w : List TimeoutWarning}
    (h : json.Spelled text rest) :
    (json = .null ∧ choiceNull ⟨text, w⟩ = .ok () ⟨rest, w⟩) ∨
      ∃ e c', choiceNull ⟨text, w⟩ = .error e c' ∧ (c'.rest = rest ∨ Stuck c'.rest) := by
  by_cases hnull : json = .null
  · subst hnull
    exact .inl ⟨rfl, choiceNull_eq_ok_iff.2 ⟨h, rfl⟩⟩
  · obtain ⟨ch, t, hnext, -⟩ := h.opens
    have hn : ch ≠ 'n' := by
      rintro rfl
      exact not_next_n h hnull t hnext
    have hother : some ch = some 'n' → False := fun hsome => hn (Option.some.inj hsome)
    rw [choiceNull]
    rw [peek_bind_of_next hnext]
    simp only []
    obtain ⟨e, c', hread, hplace⟩ :=
      unexpected_of_spelled (α := Unit) (w := w) (Json.spelled_unspaced_iff.2 h)
    exact .inr ⟨e, c', hread, hplace⟩

theorem rest_of_closeObject_eq_error {c c' : Cursor} {e : ReadError}
    (h : closeObject c = .error e c') : c'.rest = unspaced c.rest := by
  unfold closeObject at h
  rcases nil_or_next c.rest with hnil | ⟨ch, t, hnext⟩
  · rw [peek_bind_of_nil hnil] at h
    cases h
    exact hnil.symm
  · rw [peek_bind_of_next hnext] at h
    by_cases hbrace : ch = '\x7d'
    · subst hbrace
      cases (advance_of_next hnext).symm.trans h
    · have hother : some ch = some '\x7d' → False := fun hsome => hbrace (Option.some.inj hsome)
      simp only [] at h
      cases h
      rfl

/-- The member of a choice that stands as an object, up to the closing brace. -/
def choiceMember (ch : Choice α) : Reader α := do
  let name ← choiceName
  let a ← extract (Extractor.ofExcept (ch.ofName name))
  colon
  choiceNull
  closeObject
  return a

/-- Where the object is empty, a choice fails in front of the brace. -/
theorem choiceMember_of_brace {ch : Choice α} {text rest : Bytes} {w : List TimeoutWarning}
    (h : Next '\x7d' text rest) :
    choiceMember ch ⟨text, w⟩ = .error .malformed ⟨unspaced text, w⟩ := by
  have hread : choiceName ⟨text, w⟩ = .error .malformed ⟨unspaced text, w⟩ := by
    rw [choiceName]
    rw [peek_bind_of_next h]
    apply (unexpected_of_next (next_unspaced_iff.2 h) rfl).trans
    rw [unspaced_unspaced]
  exact bind_of_error hread

/-- Behind a name that is known and its colon, a choice fails where something else than null stands
or more members follow. -/
theorem error_of_choiceNull {json : Json} {item last rest : Bytes} {a : α}
    {members : List (String × Json)} {w : List TimeoutWarning} {c' : Cursor} {e : ReadError}
    (hitem : json.Spelled item last) (hmembers : Json.MembersSpelled members false last rest)
    (h : (do choiceNull; closeObject; return a : Reader α) ⟨item, w⟩ = .error e c') :
    Stuck c'.rest ∨ Json.MembersSpelled members false c'.rest rest := by
  rcases choiceNull_of_spelled (w := w) hitem with ⟨-, hnull⟩ | ⟨e', c₁, hnull, hplace⟩
  · rw [bind_of_ok hnull] at h
    rcases bind_eq_error_iff.1 h with h | ⟨_, _, -, h⟩
    · -- more members follow, and the object is not at its end
      rw [rest_of_closeObject_eq_error h]
      exact .inr (Json.membersSpelled_unspaced_iff.2 hmembers)
    · cases h
  · rw [bind_of_error hnull] at h
    cases h
    rcases hplace with hrest | hstuck
    · rw [hrest]
      exact .inr hmembers
    · exact .inl hstuck

/-- Where a choice fails inside an object: nothing goes on there, or members of the object are still
to come. -/
theorem error_of_choiceMember {ch : Choice α} {members : List (String × Json)} {text rest : Bytes}
    {w : List TimeoutWarning} {c' : Cursor} {e : ReadError}
    (hmembers : Json.MembersSpelled members true text rest)
    (h : choiceMember ch ⟨text, w⟩ = .error e c') :
    Stuck c'.rest ∨ ∃ ms, (∀ m ∈ ms, m ∈ members) ∧ Json.MembersSpelled ms false c'.rest rest := by
  cases members with
  | nil =>
    have hclose : Next '\x7d' text rest := hmembers
    cases (choiceMember_of_brace hclose).symm.trans h
    exact .inr ⟨[], by simp, next_unspaced_iff.2 hclose⟩
  | cons m members =>
    obtain ⟨name, json⟩ := m
    obtain ⟨start, quoted, behind, item, last, hlead, hmark, hname, hcolon, hitem, hmembers⟩ :=
      hmembers
    cases hlead
    have hread : choiceName ⟨text, w⟩ = .ok name ⟨behind, w⟩ :=
      choiceName_eq_ok_iff.2 ⟨⟨quoted, hmark, hname⟩, rfl⟩
    rw [choiceMember, bind_of_ok hread] at h
    cases hknown : ch.ofName name with
    | error e' =>
      -- an unknown name is refused behind it, in front of the colon
      have hextract : (extract (Extractor.ofExcept (.error e')) : Reader α) ⟨behind, w⟩ =
          .error e' ⟨behind, w⟩ := rfl
      rw [hknown, bind_of_error hextract] at h
      cases h
      exact .inl (.of_colon hcolon)
    | ok a =>
      have hextract : extract (Extractor.ofExcept (.ok a)) ⟨behind, w⟩ = .ok a ⟨behind, w⟩ := rfl
      have hpassed : colon ⟨behind, w⟩ = .ok () ⟨item, w⟩ := colon_eq_ok_iff.2 ⟨item, hcolon, rfl⟩
      rw [hknown, bind_of_ok hextract, bind_of_ok hpassed] at h
      rcases error_of_choiceNull hitem hmembers h with hstuck | hms
      · exact .inl hstuck
      · exact .inr ⟨members, fun m hm => List.mem_cons_of_mem _ hm, hms⟩

/-- A choice that is not passed as a whole fails where nothing goes on, or inside an object. -/
theorem choice_of_not_passes {ch : Choice α} {depth : Nat} {json : Json} {text rest : Bytes}
    (w : List TimeoutWarning) (hspelled : json.Spelled text rest) (hdepth : json.depth ≤ depth)
    (hpasses : ch.passes json ≠ true) : ∃ e c', choice depth ch ⟨text, w⟩ = .error e c' ∧
      (Stuck c'.rest ∨ (json.depth ≠ 0 ∧ ∃ n, Within depth (n + 1) c'.rest rest)) := by
  cases h : choice depth ch ⟨text, w⟩ with
  -- what is taken would be passed as a whole
  | ok a c' =>
    obtain ⟨j, hj, -, hx⟩ := (choice_exact ch depth _ _ _).1 h
    obtain ⟨rfl, -⟩ := hj.unique hspelled
    exact absurd (passes_of_choice_eq_ok hx) hpasses
  | error e c' =>
    refine ⟨e, c', rfl, ?_⟩
    obtain ⟨d, t, hnext, hopens⟩ := hspelled.opens
    unfold choice at h
    rw [peek_bind_of_next hnext] at h
    by_cases hbrace : d = '\x7b'
    · subst hbrace
      obtain ⟨members, rfl⟩ := Json.opens_brace_iff.1 hopens
      cases depth with
      | zero => cases hdepth
      | succ n =>
        have hmembers := (Json.exists_next_iff hnext).1 hspelled
        have hdepths := Json.membersDepth_le_iff.1 (Nat.le_of_succ_le_succ hdepth)
        replace h := (bind_of_ok (advance_of_next hnext)).symm.trans h
        rcases error_of_choiceMember hmembers h with hstuck | ⟨ms, hsub, hms⟩
        · exact .inl hstuck
        · refine .inr ⟨by simp [Json.depth], 0, .object hms ?_ .here⟩
          intro m hm
          exact Nat.le_succ_of_le (hdepths m (hsub m hm))
    · have hnobrace : some d = some '\x7b' → False := fun hsome => hbrace (Option.some.inj hsome)
      -- a string would be passed as a whole, known or not
      have hnomark : some d = some '"' → False := by
        intro hsome
        cases hsome
        obtain ⟨name, rfl⟩ := Json.opens_mark_iff.1 hopens
        exact hpasses rfl
      simp only [] at h
      cases h
      exact .inl (stuck_unspaced_iff.2 (.of_spelled hspelled))

/-- A reader that never fails on a tree strays only where the document is not tame. -/
theorem Follows.strays {depth : Nat} {tame : Json → Bool} {r : Reader α} {x : Json → Extractor α}
    (h : Follows depth tame r x) (htotal : ∀ json w, ∃ a w', x json w = .ok a w')
    (hastray : ∀ json text rest w a c', json.Spelled text rest → json.depth ≤ depth →
      tame json ≠ true → r ⟨text, w⟩ = .ok a c' →
        Stuck c'.rest ∨ (json.depth ≠ 0 ∧ ∃ n, Within depth (n + 1) c'.rest rest)) :
    Strays depth tame r x := by
  intro json text rest w a c' hspelled hdepth hread
  by_cases htame : tame json = true
  · obtain ⟨b, w', hx⟩ := htotal json w
    have heq := (h _ _ _ _ _ _ hspelled hdepth htame hx).symm.trans hread
    cases heq
    exact .inl ⟨htame, rfl, hx⟩
  · exact .inr (hastray _ _ _ _ _ _ hspelled hdepth htame hread)

theorem attempt_total (x : Extractor α) (w : List TimeoutWarning) :
    ∃ o w', Extractor.attempt x w = .ok o w' := by
  rw [Extractor.attempt]
  cases x w with
  | ok a w' => exact ⟨some a, w', rfl⟩
  | error e w' => exact ⟨none, w', rfl⟩

/-- A failure in place is answered where it happened. -/
theorem orElse_of_error {r : Reader α} {default : α} {c c' : Cursor} {e : ReadError}
    (h : r c = .error e c') : orElse .inPlace r default c = .ok default c' := by
  have htolerate : tolerate .inPlace r c = .ok (.error e) c' := by
    simp only [tolerate, attempt, h]
  rw [orElse]
  rw [bind_of_ok htolerate]
  rfl

/-- A lenient choice that is not passed as a whole leads the reader astray. -/
theorem lenient_strays (depth : Nat) (ch : Choice α) (default : α) :
    Strays depth ch.passes (orElse .inPlace (choice depth ch) default) (fun json => do
      return (← Extractor.attempt (Extractor.choice ch json)).getD default) := by
  refine (lenient_follows .inPlace depth ch default).strays ?_ ?_
  · intro json w
    obtain ⟨o, w', ho⟩ := attempt_total (Extractor.choice ch json) w
    exact ⟨_, w', bind_of_ok ho⟩
  · intro json text rest w a c' hspelled hdepth htame hread
    obtain ⟨e, c₁, herror, hastray⟩ := choice_of_not_passes w hspelled hdepth htame
    rw [orElse_of_error herror] at hread
    cases hread
    exact hastray

/-- A lenient choice that may be null leads the reader astray if it is not passed as a whole. -/
theorem lenientOption_strays (depth : Nat) (ch : Choice α) :
    Strays depth (fun json => json.isNull || ch.passes json)
      (orElse .inPlace (nullable (choice depth ch)) none) (choiceOrNone ch) := by
  refine (lenientOption_follows .inPlace depth ch).strays ?_ ?_
  · intro json w
    by_cases hnull : json = .null
    · subst hnull
      exact ⟨none, w, rfl⟩
    · rw [choiceOrNone_of_ne_null hnull]
      exact attempt_total _ w
  · intro json text rest w a c' hspelled hdepth htame hread
    have hneither : json ≠ .null ∧ ch.passes json ≠ true := by simpa using htame
    obtain ⟨e, c₁, herror, hastray⟩ :=
      choice_of_not_passes w (Json.spelled_unspaced_iff.2 hspelled) hdepth hneither.2
    have hnullable : nullable (choice depth ch) ⟨text, w⟩ = .error e c₁ :=
      (nullable_of_other (not_next_n hspelled hneither.1)).trans (bind_of_error herror)
    rw [orElse_of_error hnullable] at hread
    cases hread
    exact hastray

/-- A timeout never leads astray: whatever stands in its place is read as a tree. -/
theorem timeout_strays (depth : Nat) :
    Strays depth (fun _ => true) (timeout .inPlace depth) Extractor.timeout := by
  refine (timeout_follows .inPlace depth).strays ?_ fun _ _ _ _ _ _ _ _ h => absurd rfl h
  intro json w
  rw [Extractor.timeout]
  cases Timeout.ofJson json with
  | ok value => exact ⟨value, w, rfl⟩
  | error warning => exact ⟨none, w ++ [warning], rfl⟩

/-- What may be null goes astray only where the rest does. -/
theorem Strays.nullable {depth : Nat} {tame : Json → Bool} {r : Reader α}
    {x : Json → Extractor α} (h : Strays depth tame r x) :
    Strays depth (fun json => json.isNull || tame json) (nullable r) (nullOr x) := by
  intro json text rest w o c' hspelled hdepth hread
  rcases of_nullable_eq_ok hread with ⟨rfl, hnull, hwarnings⟩ | ⟨hother, a, rfl, ha⟩
  · obtain ⟨rfl, hrest⟩ := hspelled.unique hnull
    refine .inl ⟨rfl, hrest.symm, ?_⟩
    rw [hwarnings]
    rfl
  -- a value that is null would have been read as null
  · have hnull : json ≠ .null := by
      rintro rfl
      obtain ⟨ch, t, hnext, hopens⟩ := hspelled.opens
      cases hopens
      exact hother t hnext
    rcases h _ _ _ _ _ _ (Json.spelled_unspaced_iff.2 hspelled) hdepth ha with
      ⟨htame, hrest, hx⟩ | hastray
    · refine .inl ⟨by simp [htame], hrest, ?_⟩
      rw [nullOr_of_ne_null hnull, bind_of_ok hx]
      rfl
    · exact .inr hastray

theorem Strays.map {depth : Nat} {tame : Json → Bool} {r : Reader α} {x : Json → Extractor α}
    (h : Strays depth tame r x) (f : α → β) :
    Strays depth tame (do return f (← r)) (fun json => do return f (← x json)) := by
  intro json text rest w b c' hspelled hdepth hread
  obtain ⟨a, c₁, ha, hread⟩ := bind_eq_ok_iff.1 hread
  obtain ⟨rfl, rfl⟩ := pure_eq_ok_iff.1 hread
  rcases h _ _ _ _ _ _ hspelled hdepth ha with ⟨htame, hrest, hx⟩ | hastray
  · exact .inl ⟨htame, hrest, bind_of_ok hx⟩
  · exact .inr hastray

/-! ## Loops -/

/-- No array ends where nothing goes on. -/
theorem not_closeArray_of_stuck {c c' : Cursor} (hstuck : Stuck c.rest) :
    closeArray c ≠ .ok () c' := by
  intro hclose
  obtain ⟨ch, t, hnext, hnot⟩ := hstuck
  obtain ⟨rest, hbracket, -⟩ := closeArray_eq_ok_iff.1 hclose
  obtain ⟨rfl, -⟩ := hnext.unique hbracket
  simp at hnot

/-- A bracket that ends an array inside more than the one at hand leaves the others open. -/
theorem within_of_closeArray {depth n : Nat} {c c' : Cursor} {base : Bytes}
    (hwithin : Within depth (n + 2) c.rest base) (hclose : closeArray c = .ok () c') :
    ∃ m, Within depth (m + 1) c'.rest base := by
  obtain ⟨rest, hbracket, rfl⟩ := closeArray_eq_ok_iff.1 hclose
  rcases hwithin.innermost with ⟨items, mid, hitems, -, hmore⟩ | ⟨members, mid, hmembers, -, -⟩
  · obtain ⟨-, rfl⟩ := hitems.of_bracket hbracket
    exact ⟨n, hmore⟩
  -- a bracket closes no object
  · obtain ⟨t, ⟨-, hnext⟩ | ⟨-, hnext⟩⟩ := next_of_membersSpelled hmembers
    · cases (hnext.unique hbracket).1
    · cases (hnext.unique hbracket).1

/-- Where another element is read inside more than the array, the reader gets stuck, or it stands
inside more than the array again. -/
theorem Strays.of_within {depth : Nat} {tame : Json → Bool} {r : Reader α} {x : Json → Extractor α}
    (h : Strays depth tame r x) {n : Nat} {text item base : Bytes} {w : List TimeoutWarning}
    {c' : Cursor} {a : α} (hwithin : Within depth (n + 2) text base) (hlead : Next ',' text item)
    (hread : r ⟨unspaced item, w⟩ = .ok a c') :
    Stuck c'.rest ∨ ∃ m, Within depth (m + 2) c'.rest base := by
  -- what stands behind the comma depends on the innermost container
  rcases hwithin.innermost with
    ⟨items, mid, hitems, hdepths, hmore⟩ | ⟨members, mid, hmembers, hdepths, -⟩
  · cases items with
    | nil => cases (Next.unique hitems hlead).1
    | cons json items =>
      obtain ⟨item', behind, hlead', hjson, hitems⟩ := hitems
      obtain ⟨-, rfl⟩ := Next.unique hlead hlead'
      rw [List.forall_mem_cons] at hdepths
      rcases h _ _ _ _ _ _ (Json.spelled_unspaced_iff.2 hjson) hdepths.1 hread with
        ⟨-, rfl, -⟩ | hstuck | ⟨-, m, hwithin⟩
      · exact .inr ⟨n, .array hitems hdepths.2 hmore⟩
      · exact .inl hstuck
      · exact .inr ⟨m + 1 + n, hwithin.trans (.array hitems hdepths.2 hmore)⟩
  · -- a name is taken for an element, and a colon stands behind it
    cases members with
    | nil => cases (Next.unique hmembers hlead).1
    | cons m members =>
      obtain ⟨name, json⟩ := m
      obtain ⟨start, quoted, colon, value, behind, hlead', hmark, hname, hcolon, -⟩ := hmembers
      obtain ⟨-, rfl⟩ := Next.unique hlead hlead'
      have hstring : (Json.string name).Spelled (unspaced item) colon :=
        Json.spelled_unspaced_iff.2 ⟨quoted, hmark, hname⟩
      rcases h _ _ _ _ _ _ hstring (Nat.zero_le _) hread with ⟨-, hrest, -⟩ | hstuck | ⟨hdepth, -⟩
      · exact .inl (.of_colon (hrest ▸ hcolon))
      · exact .inl hstuck
      · exact absurd rfl hdepth

/-- No loop over elements goes on where nothing does. -/
theorem not_elementRounds_of_stuck {r : Reader α} {c c₁ c' : Cursor} {as : List α}
    (hstuck : Stuck c.rest) (hrounds : ElementRounds r false c as c₁) :
    closeArray c₁ ≠ .ok () c' := by
  cases as with
  | nil =>
    obtain ⟨-, rfl⟩ := hrounds
    exact not_closeArray_of_stuck (stuck_unspaced_iff.2 hstuck)
  | cons a as =>
    obtain ⟨item, c₂, hlead, -⟩ := hrounds
    obtain ⟨ch, t, hnext, hnot⟩ := hstuck
    obtain ⟨rfl, -⟩ := hnext.unique hlead
    simp at hnot

/-- A loop over elements that stands inside more than the array closes some other container. -/
theorem elementRounds_of_within {depth : Nat} {tame : Json → Bool} {r : Reader α}
    {x : Json → Extractor α} (h : Strays depth tame r x) {n : Nat} {c c₁ c' : Cursor} {base : Bytes}
    {as : List α} (hwithin : Within depth (n + 2) c.rest base)
    (hrounds : ElementRounds r false c as c₁) (hclose : closeArray c₁ = .ok () c') :
    ∃ m, Within depth (m + 1) c'.rest base := by
  -- on the rounds; each leaves the loop inside more than the array, or stuck
  induction as generalizing n c with
  | nil =>
    obtain ⟨-, rfl⟩ := hrounds
    exact within_of_closeArray (within_unspaced_iff.2 hwithin) hclose
  | cons a as ih =>
    obtain ⟨item, c₂, hlead, -, ha, hrounds⟩ := hrounds
    rcases h.of_within hwithin hlead ha with hstuck | ⟨m, hwithin⟩
    · exact absurd hclose (not_elementRounds_of_stuck hstuck hrounds)
    · exact ih hwithin hrounds

/-- A loop over the elements of an array reads tame ones as a tree gives them, or it ends inside the
array. -/
theorem elementRounds_strays {depth : Nat} {tame : Json → Bool} {r : Reader α}
    {x : Json → Extractor α} (h : Strays depth tame r x) {items : List Json} {first : Bool}
    {text rest : Bytes} {w : List TimeoutWarning} {c₁ c' : Cursor} {as : List α}
    (hitems : Json.ItemsSpelled items first text rest) (hdepths : ∀ json ∈ items, json.depth ≤ depth)
    (hrounds : ElementRounds r first ⟨text, w⟩ as c₁) (hclose : closeArray c₁ = .ok () c') :
    (items.all tame = true ∧ c'.rest = rest ∧ Extractor.all x items w = .ok as c'.warnings) ∨
      ∃ n, Within depth (n + 1) c'.rest rest := by
  -- as long as the elements are tame, the loop and the array go along together
  induction as generalizing items first text w with
  | nil =>
    obtain ⟨-, rfl⟩ := hrounds
    obtain ⟨rest', hbracket, rfl⟩ := closeArray_eq_ok_iff.1 hclose
    obtain ⟨rfl, rfl⟩ := hitems.of_bracket (next_unspaced_iff.1 hbracket)
    exact .inl ⟨rfl, rfl, rfl⟩
  | cons a as ih =>
    obtain ⟨item, c₂, hlead, ⟨ch, t, hnext, hne⟩, ha, hrounds⟩ := hrounds
    obtain ⟨json, others, behind, rfl, hjson, hothers⟩ := hitems.of_lead hlead hnext hne
    rw [List.forall_mem_cons] at hdepths
    rcases h _ _ _ _ _ _ (Json.spelled_unspaced_iff.2 hjson) hdepths.1 ha with
      ⟨htame, rfl, hx⟩ | hstuck | ⟨-, n, hwithin⟩
    · rcases ih hothers hdepths.2 hrounds with ⟨htames, hrest, hall⟩ | hastray
      · refine .inl ⟨by simp [htame, htames], hrest, ?_⟩
        exact all_cons_eq_ok_iff.2 ⟨a, c₂.warnings, as, hx, hall, rfl⟩
      · exact .inr hastray
    · exact absurd hclose (not_elementRounds_of_stuck hstuck hrounds)
    · have hwithin' : Within depth (n + 2) c₂.rest rest :=
        hwithin.trans (.array hothers hdepths.2 .here)
      exact .inr (elementRounds_of_within h hwithin' hrounds hclose)

/-- An array goes astray only where one of its elements does. -/
theorem Strays.array {element : Nat → Reader α} {tame : Json → Bool} {x : Json → Extractor α}
    {depth : Nat} (h : ∀ depth, Strays depth tame (element depth) x) :
    Strays depth (fun json => match json with | .array items => items.all tame | _ => true)
      (array depth element) (itemsOf x) := by
  intro json text rest w as c' hspelled hdepth hread
  obtain ⟨t, d, c₁, hnext, rfl, helements, hclose⟩ := array_eq_ok_iff.1 hread
  obtain ⟨items, rfl⟩ := Json.opens_bracket_iff.1 (hspelled.opens_of_next hnext)
  have hitems := (Json.exists_next_iff hnext).1 hspelled
  have hdepths := Json.itemsDepth_le_iff.1 (Nat.le_of_succ_le_succ hdepth)
  have hrounds := (elements_eq_ok_iff.1 helements).1
  rcases elementRounds_strays (h d) hitems hdepths hrounds hclose with hwhole | ⟨n, hwithin⟩
  · exact .inl hwhole
  · exact .inr (.inr ⟨by simp [Json.depth], n, hwithin.mono (Nat.le_succ d)⟩)

/-- The same for the reader of what stands behind a name: it needs a colon, and behind that it strays
as the reader of a value does. -/
def MemberStrays (depth : Nat) (tame : String → Json → Bool) (member : String → σ → Reader σ)
    (x : String → Json → σ → Extractor σ) : Prop :=
  ∀ name s c s' c', member name s c = .ok s' c' → ∃ item, Next ':' c.rest item ∧
    ∀ json rest, json.Spelled item rest → json.depth ≤ depth →
      (tame name json = true ∧ c'.rest = rest ∧ x name json s c.warnings = .ok s' c'.warnings) ∨
        Astray depth c'.rest rest

/-- No loop over members goes on where nothing does. -/
theorem not_memberRounds_of_stuck {member : String → σ → Reader σ} {c c₁ c' : Cursor}
    {names : List String} {s s' : σ} (hstuck : Stuck c.rest)
    (hrounds : MemberRounds member false s c names s' c₁) : closeObject c₁ ≠ .ok () c' := by
  intro hclose
  obtain ⟨ch, t, hnext, hnot⟩ := hstuck
  cases names with
  | nil =>
    obtain ⟨-, ⟨rest, hbrace⟩, -⟩ := hrounds
    obtain ⟨rfl, -⟩ := hnext.unique hbrace
    simp at hnot
  | cons name names =>
    obtain ⟨start, quoted, behind, s₁, c₂, hlead, -⟩ := hrounds
    obtain ⟨rfl, -⟩ := hnext.unique hlead
    simp at hnot

/-- Inside an array, a loop over members takes an element for a name and finds no colon. -/
theorem not_memberRounds_of_itemsSpelled {depth : Nat} {tame : String → Json → Bool}
    {member : String → σ → Reader σ} {x : String → Json → σ → Extractor σ}
    (h : MemberStrays depth tame member x) {items : List Json} {c c₁ c' : Cursor} {rest : Bytes}
    {names : List String} {s s' : σ} (hitems : Json.ItemsSpelled items false c.rest rest)
    (hrounds : MemberRounds member false s c names s' c₁) : closeObject c₁ ≠ .ok () c' := by
  cases names with
  | nil =>
    obtain ⟨-, ⟨rest, hbrace⟩, -⟩ := hrounds
    obtain ⟨t, ⟨-, hnext⟩ | ⟨-, hnext⟩⟩ := next_of_itemsSpelled hitems
    · cases (hnext.unique hbrace).1
    · cases (hnext.unique hbrace).1
  | cons name names =>
    obtain ⟨start, quoted, behind, s₁, c₂, hlead, hmark, hname, hmember, -⟩ := hrounds
    have hne : '"' ≠ ']' := by decide
    obtain ⟨json, others, last, rfl, hjson, hothers⟩ := hitems.of_lead hlead hmark hne
    -- the element would have to be a string, to be taken for a name
    have hstring : (Json.string name).Spelled start behind := ⟨quoted, hmark, hname⟩
    obtain ⟨-, rfl⟩ := hjson.unique hstring
    obtain ⟨item, hcolon, -⟩ := h _ _ _ _ _ hmember
    obtain ⟨t, ⟨-, hnext⟩ | ⟨-, hnext⟩⟩ := next_of_itemsSpelled hothers
    · cases (hnext.unique hcolon).1
    · cases (hnext.unique hcolon).1

/-- A loop over members that stands inside more than the object closes some other container. -/
theorem memberRounds_of_within {depth : Nat} {tame : String → Json → Bool}
    {member : String → σ → Reader σ} {x : String → Json → σ → Extractor σ}
    (h : MemberStrays depth tame member x) {n : Nat} {c c₁ c' : Cursor} {base : Bytes}
    {names : List String} {s s' : σ} (hwithin : Within depth (n + 2) c.rest base)
    (hrounds : MemberRounds member false s c names s' c₁) (hclose : closeObject c₁ = .ok () c') :
    ∃ m, Within depth (m + 1) c'.rest base := by
  -- on the rounds; an array around the loop stops it at once
  induction names generalizing n c s with
  | nil =>
    rcases hwithin.innermost with ⟨items, mid, hitems, -, -⟩ | ⟨members, mid, hmembers, -, hmore⟩
    · exact absurd hclose (not_memberRounds_of_itemsSpelled h hitems hrounds)
    · obtain ⟨-, -, rfl⟩ := hrounds
      obtain ⟨rest, hbrace, rfl⟩ := closeObject_eq_ok_iff.1 hclose
      obtain ⟨-, rfl⟩ := hmembers.of_brace (next_unspaced_iff.1 hbrace)
      exact ⟨n, hmore⟩
  | cons name names ih =>
    rcases hwithin.innermost with
      ⟨items, mid, hitems, -, -⟩ | ⟨members, mid, hmembers, hdepths, hmore⟩
    · exact absurd hclose (not_memberRounds_of_itemsSpelled h hitems hrounds)
    · obtain ⟨start, quoted, behind, s₁, c₂, hlead, hmark, hname, hmember, hrounds⟩ := hrounds
      obtain ⟨given, json, others, colon, item, last, rfl, hname', hcolon, hjson, hothers⟩ :=
        hmembers.of_lead hlead hmark
      obtain ⟨-, rfl⟩ := hname.unique hname'
      obtain ⟨item', hcolon', hafter⟩ := h _ _ _ _ _ hmember
      obtain ⟨-, rfl⟩ := hcolon.unique hcolon'
      rw [List.forall_mem_cons] at hdepths
      rcases hafter _ _ hjson hdepths.1 with ⟨-, rfl, -⟩ | hstuck | ⟨m, hwithin⟩
      · exact ih (.object hothers hdepths.2 hmore) hrounds
      · exact absurd hclose (not_memberRounds_of_stuck hstuck hrounds)
      · have hwithin' : Within depth (m + 1 + n + 2) c₂.rest base :=
          hwithin.trans (.object hothers hdepths.2 hmore)
        exact ih hwithin' hrounds

/-- A loop over the members of an object reads tame ones as a tree gives them, or it ends inside the
object. -/
theorem memberRounds_strays {depth : Nat} {tame : String → Json → Bool}
    {member : String → σ → Reader σ} {x : String → Json → σ → Extractor σ}
    (h : MemberStrays depth tame member x) {members : List (String × Json)} {first : Bool}
    {text rest : Bytes} {w : List TimeoutWarning} {c₁ c' : Cursor} {names : List String} {s s' : σ}
    (hmembers : Json.MembersSpelled members first text rest)
    (hdepths : ∀ m ∈ members, m.2.depth ≤ depth)
    (hrounds : MemberRounds member first s ⟨text, w⟩ names s' c₁)
    (hclose : closeObject c₁ = .ok () c') :
    ((members.all fun m => tame m.1 m.2) = true ∧ c'.rest = rest ∧
      overMembers x members s w = .ok s' c'.warnings) ∨ ∃ n, Within depth (n + 1) c'.rest rest := by
  -- as long as the members are tame, the loop and the object go along together
  induction names generalizing members first text w s with
  | nil =>
    obtain ⟨rfl, -, rfl⟩ := hrounds
    obtain ⟨rest', hbrace, rfl⟩ := closeObject_eq_ok_iff.1 hclose
    obtain ⟨rfl, rfl⟩ := hmembers.of_brace (next_unspaced_iff.1 hbrace)
    exact .inl ⟨rfl, rfl, rfl⟩
  | cons name names ih =>
    obtain ⟨start, quoted, behind, s₁, c₂, hlead, hmark, hname, hmember, hrounds⟩ := hrounds
    obtain ⟨given, json, others, colon, item, last, rfl, hname', hcolon, hjson, hothers⟩ :=
      hmembers.of_lead hlead hmark
    obtain ⟨rfl, rfl⟩ := hname.unique hname'
    obtain ⟨item', hcolon', hafter⟩ := h _ _ _ _ _ hmember
    obtain ⟨-, rfl⟩ := hcolon.unique hcolon'
    rw [List.forall_mem_cons] at hdepths
    rcases hafter _ _ hjson hdepths.1 with ⟨htame, rfl, hx⟩ | hstuck | ⟨n, hwithin⟩
    · rcases ih hothers hdepths.2 hrounds with ⟨htames, hrest, hover⟩ | hastray
      · refine .inl ⟨?_, hrest, ?_⟩
        · rw [List.all_cons, htame, htames]
          rfl
        · exact overMembers_cons_eq_ok_iff.2 ⟨s₁, c₂.warnings, hx, hover⟩
      · exact .inr hastray
    · exact absurd hclose (not_memberRounds_of_stuck hstuck hrounds)
    · have hwithin' : Within depth (n + 2) c₂.rest rest :=
        hwithin.trans (.object hothers hdepths.2 .here)
      exact .inr (memberRounds_of_within h hwithin' hrounds hclose)

/-- The same for the reader of the elements of an array that are read as the fields of a record. -/
def ElementsStray {τ : Type} (depth : Nat) (tame : List Json → Bool) (elements : Bool → Reader τ)
    (x : List Json → Extractor τ) : Prop :=
  ∀ items first text rest w a c₁ c', Json.ItemsSpelled items first text rest →
    (∀ json ∈ items, json.depth ≤ depth) → elements first ⟨text, w⟩ = .ok a c₁ →
      closeArray c₁ = .ok () c' →
        (tame items = true ∧ c'.rest = rest ∧ x items w = .ok a c'.warnings) ∨
          ∃ n, Within depth (n + 1) c'.rest rest

/-- The fields of a record, read from inside more than the array, close some other container. -/
def ElementsAstray {τ : Type} (depth : Nat) (elements : Bool → Reader τ) : Prop :=
  ∀ n c base a c₁ c', Within depth (n + 2) c.rest base → elements false c = .ok a c₁ →
    closeArray c₁ = .ok () c' → ∃ m, Within depth (m + 1) c'.rest base

end CredentialCeremony.Reader

namespace CredentialCeremony

open Reader Grammar

/-- A record goes astray only where one of its fields does. -/
theorem record_strays {τ σ α : Type} {fields : Fields τ σ} {layout : Layout τ α}
    (hmember : ∀ depth, MemberStrays depth fields.tameMember
      (fun name read => fields.readMember .inPlace depth name read) fields.extractMember)
    (helements : ∀ depth, ElementsStray depth fields.tameElements
      (fields.readElements .inPlace depth) fields.extractElements) (depth : Nat) :
    Strays depth (Schema.record fields layout).tame
      ((Schema.record fields layout).read .inPlace depth) (Schema.record fields layout).extract := by
  intro json text rest w a c' hspelled hdepth hread
  obtain ⟨d, parts, t, c₁, rfl, rfl, ⟨read, hnext, hloop, hcomplete, hclose⟩ |
    ⟨hnext, hparts, hclose⟩⟩ := read_record_eq_ok_iff.1 hread
  · obtain ⟨members, rfl⟩ := Json.opens_brace_iff.1 (hspelled.opens_of_next hnext)
    have hmembers := (Json.exists_next_iff hnext).1 hspelled
    have hdepths := Json.membersDepth_le_iff.1 (Nat.le_of_succ_le_succ hdepth)
    obtain ⟨names, hrounds, -⟩ := members_eq_ok_iff.1 hloop
    rcases memberRounds_strays (hmember d) hmembers hdepths hrounds hclose with
      ⟨htame, hrest, hover⟩ | ⟨n, hwithin⟩
    · refine .inl ⟨htame, hrest, (bind_of_ok hover).trans ?_⟩
      rw [hcomplete]
      rfl
    · exact .inr (.inr ⟨by simp [Json.depth], n, hwithin.mono (Nat.le_succ d)⟩)
  · obtain ⟨items, rfl⟩ := Json.opens_bracket_iff.1 (hspelled.opens_of_next hnext)
    have hitems := (Json.exists_next_iff hnext).1 hspelled
    have hdepths := Json.itemsDepth_le_iff.1 (Nat.le_of_succ_le_succ hdepth)
    rcases helements d _ _ _ _ _ _ _ _ hitems hdepths hparts hclose with
      ⟨htame, hrest, hx⟩ | ⟨n, hwithin⟩
    · exact .inl ⟨htame, hrest, bind_of_ok hx⟩
    · exact .inr (.inr ⟨by simp [Json.depth], n, hwithin.mono (Nat.le_succ d)⟩)

/-- The known member of an extensible record goes astray where its value does; the others never do,
since they are read as trees. -/
theorem readExtensible_strays {κ : Type} {name : String} {known : Schema κ} {depth : Nat}
    (hknown : Strays depth known.tame (known.read .inPlace depth) known.extract) :
    MemberStrays depth
      (fun given json => if given = name then json.isNull || known.tame json else true)
      (readExtensible .inPlace name known depth) (extensibleMember name known) := by
  intro given read c read' c' h
  obtain ⟨item, hcolon, ⟨hname, hfresh, o, ho, rfl⟩ | ⟨hname, j, hvalue, rfl⟩⟩ :=
    readExtensible_eq_ok_iff.1 h
  · refine ⟨item, hcolon, fun json rest hspelled hdepth => ?_⟩
    rcases hknown.nullable _ _ _ _ _ _ hspelled hdepth ho with
      ⟨htame, hrest, hx⟩ | hstuck | ⟨-, hwithin⟩
    · refine .inl ⟨(if_pos hname).trans htame, hrest, ?_⟩
      exact extensibleMember_eq_ok_iff.2 (.inl ⟨hname, hfresh, o, hx, rfl⟩)
    · exact .inr (.inl hstuck)
    · exact .inr (.inr hwithin)
  · refine ⟨item, hcolon, fun json rest hspelled hdepth => ?_⟩
    obtain ⟨_, hj, -, hx⟩ := (value_exact _ _ _ _).1 hvalue
    obtain ⟨rfl, hwarnings⟩ := pure_eq_ok_iff.1 hx
    obtain ⟨rfl, hrest⟩ := hj.unique hspelled
    refine .inl ⟨if_neg hname, hrest, ?_⟩
    exact extensibleMember_eq_ok_iff.2 (.inr ⟨hname, hwarnings, rfl⟩)

theorem extensible_strays {κ : Type} {name : String} {known : Schema κ}
    (hknown : ∀ depth, Strays depth known.tame (known.read .inPlace depth) known.extract)
    (depth : Nat) :
    Strays depth (Schema.extensible name known).tame
      ((Schema.extensible name known).read .inPlace depth)
      (Schema.extensible name known).extract := by
  intro json text rest w a c' hspelled hdepth hread
  obtain ⟨d, read, t, c₁, rfl, hnext, hloop, hclose, rfl⟩ := read_extensible_eq_ok_iff.1 hread
  obtain ⟨members, rfl⟩ := Json.opens_brace_iff.1 (hspelled.opens_of_next hnext)
  have hmembers := (Json.exists_next_iff hnext).1 hspelled
  have hdepths := Json.membersDepth_le_iff.1 (Nat.le_of_succ_le_succ hdepth)
  obtain ⟨names, hrounds, -⟩ := members_eq_ok_iff.1 hloop
  rcases memberRounds_strays (readExtensible_strays (hknown d)) hmembers hdepths hrounds hclose with
    ⟨htame, hrest, hover⟩ | ⟨n, hwithin⟩
  · exact .inl ⟨htame, hrest, bind_of_ok hover⟩
  · exact .inr (.inr ⟨by simp [Json.depth], n, hwithin.mono (Nat.le_succ d)⟩)

/-- The fields of a record are not read off an array where nothing goes on. -/
theorem not_readElements_of_stuck {τ σ : Type} {mode : Resumption} {fields : Fields τ σ}
    {depth : Nat} {c c₁ c' : Cursor} {parts : τ} (hstuck : Stuck c.rest)
    (hread : fields.readElements mode depth false c = .ok parts c₁) :
    closeArray c₁ ≠ .ok () c' := by
  cases fields with
  | nil =>
    obtain ⟨-, rfl⟩ := pure_eq_ok_iff.1 hread
    exact not_closeArray_of_stuck hstuck
  | cons name aliases schema presence others =>
    rcases readElements_cons_eq_ok_iff.1 hread with ⟨t, -, a, rest, -, -, -, rfl⟩ | ⟨item, -, hlead, -⟩
    · exact not_closeArray_of_stuck (stuck_unspaced_iff.2 hstuck)
    · obtain ⟨ch, t, hnext, hnot⟩ := hstuck
      obtain ⟨rfl, -⟩ := hnext.unique hlead
      simp at hnot

mutual

/-- A direct reader that succeeds on a document has read a tame one as a tree gives it, or it has
gone astray. -/
theorem Schema.strays : {α : Type} → (s : Schema α) → (depth : Nat) →
    Strays depth s.tame (s.read .inPlace depth) s.extract
  | _, .string, depth => (string_exact depth).strays fun _ _ _ _ _ => rfl
  | _, .bytes, depth => (bytes_exact depth).strays fun _ _ _ _ _ => rfl
  | _, .flag, depth => extract_flag ▸ (flag_exact depth).strays fun _ _ _ _ _ => rfl
  | _, .word, depth => (word_exact depth).strays fun _ _ _ _ _ => rfl
  | _, .integer, depth => (integer_exact depth).strays fun _ _ _ _ _ => rfl
  -- what is read exactly cannot go astray; the choices that are passed over can
  | _, .timeout, depth => timeout_strays depth
  | _, .spelled s, depth =>
    ((string_exact depth).bind_extract fun text => Extractor.ofExcept (s.parse text)).strays
      fun _ _ _ _ _ => rfl
  | _, .choice c, depth => (choice_exact c depth).strays fun _ _ _ _ _ => rfl
  | _, .lenient c default, depth => lenient_strays depth c default
  | _, .lenientOption c, depth => extract_lenientOption c ▸ lenientOption_strays depth c
  | _, .nullable s, depth => extract_nullable s ▸ (Schema.strays s depth).nullable
  | _, .list s, _ => extract_list s ▸ Strays.array (Schema.strays s)
  | _, .tolerant s, depth =>
    extract_tolerant s ▸ (tolerant_exact s.extract depth).strays fun _ _ _ _ _ => rfl
  | _, .listOrNull s, depth =>
    extract_listOrNull s ▸ (Schema.strays s depth).nullable.map fun o => o.getD []
  | _, .dictionary, depth =>
    extract_dictionary ▸ (dictionary_exact .inPlace depth).strays fun _ _ _ _ _ => rfl
  | _, .record fields _, depth =>
    record_strays (Fields.member_strays fields) (Fields.elements_stray fields) depth
  | _, .extensible _ known, depth => extensible_strays (Schema.strays known) depth

theorem Fields.member_strays : {τ σ : Type} → (fields : Fields τ σ) → (depth : Nat) →
    MemberStrays depth fields.tameMember
      (fun name read => fields.readMember .inPlace depth name read) fields.extractMember
  | _, _, .nil, _ => by
    intro name read c read' c' h
    obtain ⟨item, hcolon, hskip⟩ := readMember_nil_eq_ok_iff.1 h
    refine ⟨item, hcolon, fun json rest hspelled _ => ?_⟩
    cases hskip.symm.trans (skip_of_spelled hspelled)
    exact .inl ⟨rfl, rfl, rfl⟩
  | _, _, .cons name aliases schema presence others, depth => by
    intro given read c read' c' h
    obtain ⟨known, read⟩ := read
    rcases readMember_cons_eq_ok_iff.1 h with
      ⟨hname, rfl, item, a, hcolon, ha, rfl⟩ | ⟨hname, taken, htaken, rfl⟩
    · refine ⟨item, hcolon, fun json rest hspelled hdepth => ?_⟩
      simp only [Fields.tameMember, Fields.extractMember, if_pos hname]
      rcases Schema.strays schema depth _ _ _ _ _ _ hspelled hdepth ha with
        ⟨htame, hrest, hx⟩ | hstuck | ⟨-, hwithin⟩
      · exact .inl ⟨htame, hrest, bind_of_ok hx⟩
      · exact .inr (.inl hstuck)
      · exact .inr (.inr hwithin)
    · obtain ⟨item, hcolon, hafter⟩ := Fields.member_strays others depth _ _ _ _ _ htaken
      refine ⟨item, hcolon, fun json rest hspelled hdepth => ?_⟩
      simp only [Fields.tameMember, Fields.extractMember, if_neg hname]
      rcases hafter _ _ hspelled hdepth with ⟨htame, hrest, hx⟩ | hastray
      · exact .inl ⟨htame, hrest, bind_of_ok hx⟩
      · exact .inr hastray

theorem Fields.elements_stray : {τ σ : Type} → (fields : Fields τ σ) → (depth : Nat) →
    ElementsStray depth fields.tameElements (fields.readElements .inPlace depth)
      fields.extractElements
  | _, _, .nil, _ => by
    intro items first text rest w a c₁ c' hitems hdepths hread hclose
    obtain ⟨rfl, rfl⟩ := pure_eq_ok_iff.1 hread
    obtain ⟨rest', hbracket, rfl⟩ := closeArray_eq_ok_iff.1 hclose
    obtain ⟨rfl, rfl⟩ := hitems.of_bracket hbracket
    exact .inl ⟨rfl, rfl, rfl⟩
  | _, _, .cons _ _ schema presence others, depth => by
    intro items first text rest w a c₁ c' hitems hdepths hread hclose
    rcases readElements_cons_eq_ok_iff.1 hread with
      ⟨t, hbracket, b, parts, hb, hparts, rfl, rfl⟩ |
        ⟨item, ⟨ch, t, hnext, hne⟩, hlead, b, c₂, hb, parts, hparts, rfl⟩
    · obtain ⟨rfl, rfl⟩ := hitems.of_bracket hbracket
      obtain ⟨rest', hbracket', rfl⟩ := closeArray_eq_ok_iff.1 hclose
      obtain ⟨-, rfl⟩ := hbracket.unique (next_unspaced_iff.1 hbracket')
      refine .inl ⟨rfl, rfl, ?_⟩
      simp only [Fields.extractElements, hb, hparts]
      rfl
    · obtain ⟨json, more, behind, rfl, hjson, hmore⟩ := hitems.of_lead hlead hnext hne
      rw [List.forall_mem_cons] at hdepths
      rcases Schema.strays schema depth _ _ _ _ _ _ (Json.spelled_unspaced_iff.2 hjson) hdepths.1 hb
        with ⟨htame, rfl, hx⟩ | hstuck | ⟨-, n, hwithin⟩
      · rcases Fields.elements_stray others depth _ _ _ _ _ _ _ _ hmore hdepths.2 hparts hclose with
          ⟨htames, hrest, hxs⟩ | hastray
        · refine .inl ⟨?_, hrest, (bind_of_ok hx).trans (bind_of_ok hxs)⟩
          simp only [Fields.tameElements, htame, htames, Bool.and_self]
        · exact .inr hastray
      · exact absurd hclose (not_readElements_of_stuck hstuck hparts)
      · have hwithin' : Within depth (n + 2) c₂.rest rest :=
          hwithin.trans (.array hmore hdepths.2 .here)
        exact .inr (Fields.elements_astray others depth _ _ _ _ _ _ hwithin' hparts hclose)

theorem Fields.elements_astray : {τ σ : Type} → (fields : Fields τ σ) → (depth : Nat) →
    ElementsAstray depth (fields.readElements .inPlace depth)
  | _, _, .nil, _ => by
    intro n c base a c₁ c' hwithin hread hclose
    obtain ⟨-, rfl⟩ := pure_eq_ok_iff.1 hread
    exact within_of_closeArray hwithin hclose
  | _, _, .cons _ _ schema presence others, depth => by
    intro n c base a c₁ c' hwithin hread hclose
    rcases readElements_cons_eq_ok_iff.1 hread with
      ⟨t, hbracket, b, parts, hb, hparts, rfl, rfl⟩ | ⟨item, -, hlead, b, c₂, hb, parts, hparts, rfl⟩
    · exact within_of_closeArray (within_unspaced_iff.2 hwithin) hclose
    · rcases (Schema.strays schema depth).of_within hwithin hlead hb with hstuck | ⟨m, hwithin⟩
      · exact absurd hclose (not_readElements_of_stuck hstuck hparts)
      · exact Fields.elements_astray others depth _ _ _ _ _ _ hwithin hparts hclose

end

end CredentialCeremony
