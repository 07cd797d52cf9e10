import CredentialCeremony.Proofs.Schema.Astray

set_option autoImplicit false

/-!
# Reading behind values only

A reader that passes over a failure only behind the value of its field takes values of the grammar
and nothing else. Main statement: what it takes is one value of the grammar (`Schema.sound`).
-/

namespace CredentialCeremony

namespace Reader

open Grammar

variable {α β σ : Type}

/-- What the reader takes is a value of the grammar. -/
def Sound (r : Reader α) : Prop := ∀ c a c', r c = .ok a c' → Value c.rest c'.rest

/-- What the reader takes behind a name is a colon and a value of the grammar. -/
def MemberSound (member : String → σ → Reader σ) : Prop :=
  ∀ name s c s' c', member name s c = .ok s' c' →
    ∃ item, Next ':' c.rest item ∧ Value item c'.rest

theorem Exact.sound {depth : Nat} {r : Reader α} {x : Json → Extractor α} (h : Exact depth r x) :
    Sound r := by
  intro c a c' hread
  obtain ⟨json, hspelled, -⟩ := (h _ _ _).1 hread
  exact hspelled.grammar

theorem Sound.map {r : Reader α} (h : Sound r) (f : α → β) : Sound (do return f (← r)) := by
  intro c b c' hread
  obtain ⟨a, c₁, ha, hread⟩ := bind_eq_ok_iff.1 hread
  obtain ⟨-, rfl⟩ := pure_eq_ok_iff.1 hread
  exact h _ _ _ ha

/-- A failure is passed over behind a value only. -/
theorem value_of_tolerate {r : Reader α} (h : Sound r) {c c' : Cursor} {o : Except ReadError α}
    (hread : tolerate .behindValue r c = .ok o c') : Value c.rest c'.rest := by
  unfold tolerate at hread
  cases hr : r c with
  | ok a c₁ =>
    simp only [hr] at hread
    cases hread
    exact h _ _ _ hr
  -- the failure counts as passed over only where skipping the value would have ended
  | error e failed =>
    cases hskip : skip c with
    | error e' passed => simp [hr, hskip] at hread
    | ok u passed =>
      simp only [hr, hskip] at hread
      split at hread
      · rename_i hplace
        cases hread
        rw [hplace]
        exact value_of_skip hskip
      · cases hread

theorem Sound.orElse {r : Reader α} (h : Sound r) (default : α) :
    Sound (orElse .behindValue r default) := by
  intro c a c' hread
  obtain ⟨o, c₁, htolerate, hread⟩ := bind_eq_ok_iff.1 hread
  have hvalue := value_of_tolerate h htolerate
  cases o with
  | ok b =>
    obtain ⟨-, rfl⟩ := pure_eq_ok_iff.1 hread
    exact hvalue
  | error e =>
    obtain ⟨-, rfl⟩ := pure_eq_ok_iff.1 hread
    exact hvalue

theorem timeout_sound (depth : Nat) : Sound (timeout .behindValue depth) := by
  intro c a c' hread
  obtain ⟨o, c₁, htolerate, hread⟩ := bind_eq_ok_iff.1 hread
  have hvalue := value_of_tolerate (value_exact depth).sound htolerate
  cases o with
  | ok json =>
    obtain ⟨-, hrest⟩ := extract_eq_ok_iff.1 hread
    rw [hrest]
    exact hvalue
  | error e =>
    obtain ⟨u, c₂, hwarn, hread⟩ := bind_eq_ok_iff.1 hread
    obtain ⟨-, rfl⟩ := pure_eq_ok_iff.1 hread
    rw [warn_eq_ok_iff.1 hwarn]
    exact hvalue

theorem Sound.nullable {r : Reader α} (h : Sound r) : Sound (nullable r) := by
  intro c o c' hread
  rcases of_nullable_eq_ok hread with ⟨-, hnull, -⟩ | ⟨-, a, -, ha⟩
  · exact hnull.grammar
  · exact value_unspaced_iff.1 (h _ _ _ ha)

/-- What a loop over elements and the bracket behind it take are the elements of an array. -/
theorem elements_of_elementRounds {r : Reader α} (h : Sound r) {first : Bool} {c c₁ c' : Cursor}
    {as : List α} (hrounds : ElementRounds r first c as c₁) (hclose : closeArray c₁ = .ok () c') :
    Elements first c.rest c'.rest := by
  induction as generalizing first c with
  | nil =>
    obtain ⟨-, rfl⟩ := hrounds
    obtain ⟨rest, hbracket, rfl⟩ := closeArray_eq_ok_iff.1 hclose
    exact .close (next_unspaced_iff.1 hbracket)
  | cons a as ih =>
    obtain ⟨item, c₂, hlead, -, ha, hrounds⟩ := hrounds
    exact .item hlead (value_unspaced_iff.1 (h _ _ _ ha)) (ih hrounds)

theorem array_sound {element : Nat → Reader α} (h : ∀ depth, Sound (element depth)) (depth : Nat) :
    Sound (array depth element) := by
  intro c as c' hread
  obtain ⟨t, d, c₁, hnext, -, helements, hclose⟩ := array_eq_ok_iff.1 hread
  have hrounds := (elements_eq_ok_iff.1 helements).1
  exact .array hnext (elements_of_elementRounds (h d) hrounds hclose)

/-- What a loop over members and the brace behind it take are the members of an object. -/
theorem members_of_memberRounds {member : String → σ → Reader σ} (h : MemberSound member)
    {first : Bool} {c c₁ c' : Cursor} {names : List String} {s s' : σ}
    (hrounds : MemberRounds member first s c names s' c₁) (hclose : closeObject c₁ = .ok () c') :
    Members first c.rest c'.rest := by
  induction names generalizing first c s with
  | nil =>
    obtain ⟨-, -, rfl⟩ := hrounds
    obtain ⟨rest, hbrace, rfl⟩ := closeObject_eq_ok_iff.1 hclose
    exact .close (next_unspaced_iff.1 hbrace)
  | cons name names ih =>
    obtain ⟨start, quoted, behind, s₁, c₂, hlead, hmark, hname, hmember, hrounds⟩ := hrounds
    obtain ⟨item, hcolon, hvalue⟩ := h _ _ _ _ _ hmember
    exact .member hlead hmark hname.escaped hcolon hvalue (ih hrounds)

end Reader

open Reader Grammar

/-- The elements that are read as the fields of a record, and the bracket behind them, are the
elements of an array. -/
def ElementsSound {τ : Type} (elements : Bool → Reader τ) : Prop :=
  ∀ first c a c₁ c', elements first c = .ok a c₁ → closeArray c₁ = .ok () c' →
    Elements first c.rest c'.rest

theorem record_sound {τ σ α : Type} {fields : Fields τ σ} {layout : Layout τ α}
    (hmember : ∀ depth, MemberSound
      (fun name read => fields.readMember .behindValue depth name read))
    (helements : ∀ depth, ElementsSound (fields.readElements .behindValue depth)) (depth : Nat) :
    Sound ((Schema.record fields layout).read .behindValue depth) := by
  intro c a c' hread
  obtain ⟨d, parts, t, c₁, -, -, ⟨read, hnext, hloop, -, hclose⟩ | ⟨hnext, hparts, hclose⟩⟩ :=
    read_record_eq_ok_iff.1 hread
  · obtain ⟨names, hrounds, -⟩ := members_eq_ok_iff.1 hloop
    exact .object hnext (members_of_memberRounds (hmember d) hrounds hclose)
  · exact .array hnext (helements d _ _ _ _ _ hparts hclose)

theorem readExtensible_sound {κ : Type} {name : String} {known : Schema κ} {depth : Nat}
    (hknown : Sound (known.read .behindValue depth)) :
    MemberSound (readExtensible .behindValue name known depth) := by
  intro given read c read' c' h
  obtain ⟨item, hcolon, ⟨-, -, o, ho, -⟩ | ⟨-, json, hvalue, -⟩⟩ := readExtensible_eq_ok_iff.1 h
  · exact ⟨item, hcolon, hknown.nullable _ _ _ ho⟩
  · exact ⟨item, hcolon, (value_exact depth).sound _ _ _ hvalue⟩

theorem extensible_sound {κ : Type} {name : String} {known : Schema κ}
    (hknown : ∀ depth, Sound (known.read .behindValue depth)) (depth : Nat) :
    Sound ((Schema.extensible name known).read .behindValue depth) := by
  intro c a c' hread
  obtain ⟨d, read, t, c₁, -, hnext, hloop, hclose, -⟩ := read_extensible_eq_ok_iff.1 hread
  obtain ⟨names, hrounds, -⟩ := members_eq_ok_iff.1 hloop
  exact .object hnext (members_of_memberRounds (readExtensible_sound (hknown d)) hrounds hclose)

mutual

/-- What is read behind values only is one value of the grammar. -/
theorem Schema.sound : {α : Type} → (s : Schema α) → (depth : Nat) →
    Sound (s.read .behindValue depth)
  | _, .string, depth => (string_exact depth).sound
  | _, .bytes, depth => (bytes_exact depth).sound
  | _, .flag, depth => (flag_exact depth).sound
  | _, .word, depth => (word_exact depth).sound
  | _, .integer, depth => (integer_exact depth).sound
  | _, .timeout, depth => timeout_sound depth
  | _, .spelled s, depth =>
    ((string_exact depth).bind_extract fun text => Extractor.ofExcept (s.parse text)).sound
  | _, .choice c, depth => (choice_exact c depth).sound
  | _, .lenient c default, depth => (choice_exact c depth).sound.orElse default
  | _, .lenientOption c, depth => (choice_exact c depth).sound.nullable.orElse none
  | _, .nullable s, depth => (Schema.sound s depth).nullable
  | _, .list s, depth => array_sound (Schema.sound s) depth
  | _, .tolerant s, depth => (tolerant_exact s.extract depth).sound
  | _, .listOrNull s, depth => (Schema.sound s depth).nullable.map fun o => o.getD []
  | _, .dictionary, depth => (dictionary_exact .behindValue depth).sound
  | _, .record fields _, depth =>
    record_sound (Fields.member_sound fields) (Fields.elements_sound fields) depth
  | _, .extensible _ known, depth => extensible_sound (Schema.sound known) depth

theorem Fields.member_sound : {τ σ : Type} → (fields : Fields τ σ) → (depth : Nat) →
    MemberSound (fun name read => fields.readMember .behindValue depth name read)
  | _, _, .nil, _ => by
    intro name read c read' c' h
    obtain ⟨item, hcolon, hskip⟩ := readMember_nil_eq_ok_iff.1 h
    exact ⟨item, hcolon, value_of_skip hskip⟩
  | _, _, .cons name aliases schema _ others, depth => by
    intro given read c read' c' h
    obtain ⟨known, read⟩ := read
    rcases readMember_cons_eq_ok_iff.1 h with ⟨-, -, item, a, hcolon, ha, -⟩ | ⟨-, taken, htaken, -⟩
    · exact ⟨item, hcolon, Schema.sound schema depth _ _ _ ha⟩
    · exact Fields.member_sound others depth _ _ _ _ _ htaken

theorem Fields.elements_sound : {τ σ : Type} → (fields : Fields τ σ) → (depth : Nat) →
    ElementsSound (fields.readElements .behindValue depth)
  | _, _, .nil, _ => by
    intro first c a c₁ c' hread hclose
    obtain ⟨-, rfl⟩ := pure_eq_ok_iff.1 hread
    obtain ⟨rest, hbracket, rfl⟩ := closeArray_eq_ok_iff.1 hclose
    exact .close hbracket
  | _, _, .cons _ _ schema _ others, depth => by
    intro first c a c₁ c' hread hclose
    rcases readElements_cons_eq_ok_iff.1 hread with
      ⟨t, -, b, parts, -, -, -, rfl⟩ | ⟨item, -, hlead, b, c₂, hb, parts, hparts, -⟩
    · obtain ⟨rest, hbracket, rfl⟩ := closeArray_eq_ok_iff.1 hclose
      exact .close (next_unspaced_iff.1 hbracket)
    · have hvalue := value_unspaced_iff.1 (Schema.sound schema depth _ _ _ hb)
      exact .item hlead hvalue (Fields.elements_sound others depth _ _ _ _ _ hparts hclose)

end

end CredentialCeremony
