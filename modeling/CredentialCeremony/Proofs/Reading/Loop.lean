import CredentialCeremony.Proofs.Reading.Run
import CredentialCeremony.Proofs.Reading.Token

set_option autoImplicit false

/-!
# Loops over elements and members

A loop over the elements of an array, or over the members of an object, succeeds exactly if each of
its rounds does, one behind the other, and the clock is longer than the rounds
(`elementsAlong_eq_ok_iff`, `membersAlong_eq_ok_iff`). What a loop does is then shown by induction on
its rounds, without the clock.
-/

namespace CredentialCeremony.Reader

open Grammar

variable {α σ : Type}

/-- The rounds of a loop over elements, from one place to the bracket in front of which it ends. -/
def ElementRounds (element : Reader α) : (first : Bool) → Cursor → List α → Cursor → Prop
  | _, c, [], c' => (∃ rest, Next ']' c.rest rest) ∧ c' = ⟨unspaced c.rest, c.warnings⟩
  | first, c, a :: as, c' =>
    ∃ item c₁, Lead first c.rest item ∧ (∃ ch rest, Next ch item rest ∧ ch ≠ ']') ∧
      element ⟨unspaced item, c.warnings⟩ = .ok a c₁ ∧ ElementRounds element false c₁ as c'

/-- The rounds of a loop over members, from one place to the brace in front of which it ends, with
the names that were met. -/
def MemberRounds (member : String → σ → Reader σ) :
    (first : Bool) → σ → Cursor → List String → σ → Cursor → Prop
  | _, s, c, [], s', c' =>
    s = s' ∧ (∃ rest, Next '\x7d' c.rest rest) ∧ c' = ⟨unspaced c.rest, c.warnings⟩
  | first, s, c, name :: names, s', c' =>
    ∃ start quoted behind s₁ c₁, Lead first c.rest start ∧ Next '"' start quoted ∧
      Chars quoted (utf8 name) behind ∧ member name s ⟨behind, c.warnings⟩ = .ok s₁ c₁ ∧
        MemberRounds member false s₁ c₁ names s' c'

theorem stringBody_eq_ok_iff {c c' : Cursor} {s : String} : stringBody c = .ok s c' ↔
    Chars c.rest (utf8 s) c'.rest ∧ c'.warnings = c.warnings := by
  rw [stringBody]
  rw [bind_eq_ok_iff]
  simp only [scan_eq_ok_iff, scanString_eq_ok_iff]
  constructor
  · rintro ⟨content, c₁, ⟨hchars, hwarnings⟩, h⟩
    cases hs : ofUtf8? content with
    -- content that encodes no text is refused
    | none =>
      rw [hs] at h
      exact absurd h fail_ne_ok
    | some s₁ =>
      rw [hs] at h
      obtain ⟨rfl, rfl⟩ := pure_eq_ok_iff.1 h
      exact ⟨ofUtf8?_eq_some_iff.1 hs ▸ hchars, hwarnings⟩
  · rintro ⟨hchars, hwarnings⟩
    refine ⟨utf8 s, c', ⟨hchars, hwarnings⟩, ?_⟩
    rw [ofUtf8?_utf8]
    rfl

/-- A round of the loop over members takes the member that comes next. -/
theorem membersAlong_of_member {member : String → σ → Reader σ} {b : UInt8} {clock : Bytes}
    {first : Bool} {s : σ} {text start quoted colonText : Bytes} {name : String}
    {w : List TimeoutWarning} (hlead : Lead first text start) (hmark : Next '"' start quoted)
    (hname : Chars quoted (utf8 name) colonText) :
    membersAlong member (b :: clock) first s ⟨text, w⟩ =
      (do membersAlong member clock false (← member name s) : Reader σ) ⟨colonText, w⟩ := by
  have hbody : stringBody ⟨quoted, w⟩ = .ok name ⟨colonText, w⟩ :=
    stringBody_eq_ok_iff.2 ⟨hname, rfl⟩
  rw [membersAlong, bind_of_ok (nextMember_of_lead hlead hmark), if_pos rfl]
  exact bind_of_ok hbody

/-- A loop over elements succeeds exactly if its rounds do and the clock is longer. -/
theorem elementsAlong_eq_ok_iff {element : Reader α} {clock : Bytes} {first : Bool}
    {c c' : Cursor} {as : List α} : elementsAlong element clock first c = .ok as c' ↔
      ElementRounds element first c as c' ∧ as.length < clock.length := by
  -- the loop spends one byte of its clock for each element and one for the bracket
  induction clock generalizing first c as with
  | nil => exact iff_of_false fail_ne_ok (by simp)
  | cons b clock ih =>
    rw [elementsAlong, bind_eq_ok_iff]
    constructor
    · rintro ⟨more, c₁, hmore, h⟩
      rcases of_nextElement_eq_ok hmore with ⟨rfl, hbracket, rfl⟩ | ⟨rfl, item, hlead, hnext, rfl⟩
      · obtain ⟨rfl, rfl⟩ := pure_eq_ok_iff.1 h
        exact ⟨⟨hbracket, rfl⟩, by simp⟩
      · obtain ⟨a, c₁, ha, h⟩ := bind_eq_ok_iff.1 h
        obtain ⟨as, c₂, has, h⟩ := bind_eq_ok_iff.1 h
        obtain ⟨rfl, rfl⟩ := pure_eq_ok_iff.1 h
        obtain ⟨hrounds, hlength⟩ := ih.1 has
        exact ⟨⟨item, c₁, hlead, hnext, ha, hrounds⟩, by simpa using hlength⟩
    -- the rounds tell which way each look at the next character goes
    · rintro ⟨hrounds, hlength⟩
      cases as with
      | nil =>
        obtain ⟨⟨rest, hbracket⟩, rfl⟩ := hrounds
        exact ⟨false, _, nextElement_of_bracket hbracket, rfl⟩
      | cons a as =>
        obtain ⟨item, c₁, hlead, ⟨ch, rest, hnext, hne⟩, ha, hrounds⟩ := hrounds
        refine ⟨true, _, nextElement_of_lead hlead hnext hne, ?_⟩
        have has := ih.2 ⟨hrounds, by simpa using hlength⟩
        exact bind_eq_ok_iff.2 ⟨a, c₁, ha, bind_eq_ok_iff.2 ⟨as, c', has, rfl⟩⟩

/-- A loop over members succeeds exactly if its rounds do and the clock is longer. -/
theorem membersAlong_eq_ok_iff {member : String → σ → Reader σ} {clock : Bytes} {first : Bool}
    {c c' : Cursor} {s s' : σ} : membersAlong member clock first s c = .ok s' c' ↔
      ∃ names, MemberRounds member first s c names s' c' ∧ names.length < clock.length := by
  -- as for elements; the names that are met are those of the rounds
  induction clock generalizing first c s with
  | nil => exact iff_of_false fail_ne_ok (by simp)
  | cons b clock ih =>
    rw [membersAlong, bind_eq_ok_iff]
    constructor
    · rintro ⟨more, c₁, hmore, h⟩
      rcases of_nextMember_eq_ok hmore with
        ⟨rfl, hbrace, rfl⟩ | ⟨rfl, start, quoted, hlead, hmark, rfl⟩
      · obtain ⟨rfl, rfl⟩ := pure_eq_ok_iff.1 h
        exact ⟨[], ⟨rfl, hbrace, rfl⟩, by simp⟩
      · obtain ⟨name, c₁, hname, h⟩ := bind_eq_ok_iff.1 h
        obtain ⟨s₁, c₂, hmember, h⟩ := bind_eq_ok_iff.1 h
        obtain ⟨names, hrounds, hlength⟩ := ih.1 h
        obtain ⟨hchars, hwarnings⟩ := stringBody_eq_ok_iff.1 hname
        obtain ⟨behind, warnings⟩ := c₁
        obtain rfl : warnings = c.warnings := hwarnings
        exact ⟨name :: names, ⟨start, quoted, behind, s₁, c₂, hlead, hmark, hchars, hmember, hrounds⟩,
          by simpa using hlength⟩
    -- the rounds tell which way each look at the next character goes
    · rintro ⟨names, hrounds, hlength⟩
      cases names with
      | nil =>
        obtain ⟨rfl, ⟨rest, hbrace⟩, rfl⟩ := hrounds
        exact ⟨false, _, nextMember_of_brace hbrace, rfl⟩
      | cons name names =>
        obtain ⟨start, quoted, behind, s₁, c₁, hlead, hmark, hchars, hmember, hrounds⟩ := hrounds
        refine ⟨true, _, nextMember_of_lead hlead hmark, ?_⟩
        have hname : stringBody ⟨quoted, c.warnings⟩ = .ok name ⟨behind, c.warnings⟩ :=
          stringBody_eq_ok_iff.2 ⟨hchars, rfl⟩
        have hmembers := ih.2 ⟨names, hrounds, by simpa using hlength⟩
        exact bind_eq_ok_iff.2 ⟨name, _, hname, bind_eq_ok_iff.2 ⟨s₁, c₁, hmember, hmembers⟩⟩

theorem elements_eq_ok_iff {element : Reader α} {c c' : Cursor} {as : List α} :
    elements element c = .ok as c' ↔
      ElementRounds element true c as c' ∧ as.length < c.rest.length :=
  elementsAlong_eq_ok_iff

theorem members_eq_ok_iff {member : String → σ → Reader σ} {c c' : Cursor} {s s' : σ} :
    members member s c = .ok s' c' ↔
      ∃ names, MemberRounds member true s c names s' c' ∧ names.length < c.rest.length :=
  membersAlong_eq_ok_iff

/-- A body in its closing succeeds if both do, in turn. -/
theorem closedBy_eq_ok_iff {body : Reader α} {closing : Reader Unit} {c c' : Cursor} {a : α} :
    closedBy body closing c = .ok a c' ↔
      ∃ c₁, body c = .ok a c₁ ∧ closing c₁ = .ok () c' := by
  rw [closedBy]
  cases hbody : body c with
  | ok b c₁ =>
    cases hclosing : closing c₁ with
    | ok u c₂ => simp only [EStateM.Result.ok.injEq]; grind
    | error e c₂ => simp only [EStateM.Result.ok.injEq]; grind
  | error e c₁ => cases hclosing : closing c₁ <;> simp [hclosing]

end CredentialCeremony.Reader
