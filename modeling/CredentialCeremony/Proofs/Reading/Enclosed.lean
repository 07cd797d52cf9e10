import CredentialCeremony.Proofs.Json.Front
import CredentialCeremony.Proofs.Json.Outline
import CredentialCeremony.Proofs.Reading.Confined

set_option autoImplicit false

/-!
# Readers of values stay within the values

A reader that takes values of the grammar and passes over failures behind them only is confined to
every value that it is given (`Reader.Encloses`). In front of more text, a loop over elements or
members comes to the closing character of its container in any case: what is read in it leaves that
character, whether it succeeds or fails (`Reader.Leaves`).

Main statement: a tree is read off a value alone (`Reader.value_encloses`).
-/

namespace CredentialCeremony

open Grammar

namespace Reader

variable {α : Type} {text rest t : Bytes} {ch : Char}

/-- The reader is confined to every value that it is given. -/
def Encloses (r : Reader α) : Prop := ∀ value, Value value [] → Confined r value

theorem word_confined {cs : String} {u : Unit} (h : scanWord cs.toList text = .ok (u, rest)) :
    Confined (word cs) text := by
  obtain ⟨bytes, hbytes, rfl⟩ := scanWord_eq_ok_iff.1 h
  refine scan_confined fun more _ => scanWord_append ?_
  rw [← hbytes, List.length_map, List.length_append]
  exact Nat.le_add_right _ _

/-- A scalar that starts at the next character. -/
theorem scalar?_confined {r : Reader Json} (h : Front (unspaced text) t [] ch)
    (hnext : Next ch text t) (hscalar : scalar? ch = some r) : Confined r (unspaced text) := by
  have hword (cs : String) (json : Json) (hscan : scanWord cs.toList t = .ok ((), [])) :
      Confined (do advance; word cs; return json) (unspaced text) :=
    .advance_bind hnext ((word_confined hscan).bind fun _ _ _ _ _ => pure_confined json)
  unfold scalar? at hscalar
  split at hscalar
  · cases hscalar
    exact hword "ull" .null h
  · cases hscalar
    exact hword "rue" (.bool true) h
  · cases hscalar
    exact hword "alse" (.bool false) h
  · cases hscalar
    exact .advance_bind hnext ((numeral_confined h true).map _)
  · cases hscalar
    exact .advance_bind hnext ((stringBody_confined h).map _)
  · split at hscalar
    · rename_i hdigit
      cases hscalar
      exact (numeral_confined ((front_iff_of_digit hdigit).1 h) false).map _
    · cases hscalar

/-- What starts with no scalar is an array or an object. -/
theorem opens_of_scalar? (h : Front text t rest ch) (hscalar : scalar? ch = none) :
    ch = '[' ∧ Elements true t rest ∨ ch = '\x7b' ∧ Members true t rest := by
  unfold Front at h
  split at h
  case h_1 => exact .inl ⟨rfl, h⟩
  case h_2 => exact .inr ⟨rfl, h⟩
  case h_8 => simp [scalar?, h.1] at hscalar
  -- any other character starts a word, a string or a negative numeral
  all_goals cases hscalar

theorem unexpected_encloses : Encloses (unexpected : Reader α) := by
  intro value hvalue
  obtain ⟨ch, t, hnext, -⟩ := exists_next_of_value hvalue
  apply Confined.peek_bind hnext
  dsimp only
  cases hscalar : scalar? ch with
  | none => exact fail_confined
  | some r =>
    have hscanned := scalar?_confined (hvalue.front hnext) hnext hscalar
    exact hscanned.bind fun _ _ _ _ _ => fail_confined

section Encloses
variable {r : Reader α}

/-- In front of anything that stops a numeral, a value is read as by itself. -/
theorem Encloses.confined (h : Encloses r) (hvalue : Value text rest) (hrest : Stops rest) :
    Confined r text := by
  obtain ⟨value, rfl, hwhole⟩ := hvalue.exists_piece
  exact (h value hwhole).append hrest

/-- Whatever comes of it, the reader leaves more than white space. -/
def Leaves (r : Reader α) (text : Bytes) : Prop := ∀ w, unspaced (left (r ⟨text, w⟩)) ≠ []

theorem pure_leaves (a : α) (h : unspaced text ≠ []) : Leaves (pure a) text := fun _ => h

theorem Leaves.bind {β : Type} {f : α → Reader β} (h : Leaves r text)
    (hf : ∀ a rest w w', r ⟨text, w⟩ = .ok a ⟨rest, w'⟩ → Leaves (f a) rest) :
    Leaves (r >>= f) text := by
  intro w
  have hleft := h w
  cases hread : r ⟨text, w⟩ with
  | ok a c =>
    rw [bind_of_ok hread]
    exact hf a c.rest w c.warnings hread c.warnings
  | error e c =>
    rw [hread] at hleft
    rw [bind_of_error hread]
    exact hleft

theorem Leaves.bind_of_ok {β : Type} {f : α → Reader β} {a : α}
    (h : ∀ w, r ⟨text, w⟩ = .ok a ⟨rest, w⟩) (hf : Leaves (f a) rest) : Leaves (r >>= f) text := by
  intro w
  rw [CredentialCeremony.bind_of_ok (h w)]
  exact hf w

theorem Leaves.map {β : Type} (h : Leaves r text) (f : α → β) :
    Leaves (do return f (← r)) text := by
  intro w
  have hleft := h w
  cases hread : r ⟨text, w⟩ with
  | ok a c =>
    rw [CredentialCeremony.bind_of_ok hread]
    rwa [hread] at hleft
  | error e c =>
    rw [bind_of_error hread]
    rwa [hread] at hleft

/-- What is confined to a part of the text leaves the other part. -/
theorem Confined.leaves {front : Bytes} (h : Confined r front) (hrest : Stops rest)
    (hsome : unspaced rest ≠ []) : Leaves r (front ++ rest) := by
  intro w
  have hread := h rest hrest [] w
  rw [List.nil_append] at hread
  rw [hread, left_widen, Ne, unspaced_eq_nil_iff]
  rw [Ne, unspaced_eq_nil_iff] at hsome
  exact fun hall => hsome fun b hb => hall b (List.mem_append_right _ hb)

theorem Encloses.leaves (h : Encloses r) (hvalue : Value text rest) (hrest : Stops rest)
    (hsome : unspaced rest ≠ []) : Leaves r text := by
  obtain ⟨value, rfl, hwhole⟩ := hvalue.exists_piece
  exact (h value hwhole).leaves hrest hsome

theorem lead_append {first : Bool} {start more : Bytes} (h : Lead first text start) :
    Lead first (text ++ more) (start ++ more) := by
  cases first with
  | true => exact congrArg (· ++ more) h
  | false => exact next_append h

theorem unspaced_ne_nil (h : Next ch text rest) : unspaced text ≠ [] := fun hnil =>
  not_next_of_nil hnil h

theorem unspaced_ne_nil_of_value (h : Value text rest) : unspaced text ≠ [] := by
  obtain ⟨ch, t, hnext, -⟩ := exists_next_of_value h
  exact unspaced_ne_nil hnext

theorem unspaced_ne_nil_of_elements {first : Bool} (h : Elements first text rest) :
    unspaced text ≠ [] := by
  cases h with
  | close hnext => exact unspaced_ne_nil hnext
  | item hlead hitem _ =>
    cases first with
    | true => exact unspaced_ne_nil_of_value (hlead ▸ hitem)
    | false => exact unspaced_ne_nil hlead

theorem unspaced_ne_nil_of_members {first : Bool} (h : Members first text rest) :
    unspaced text ≠ [] := by
  cases h with
  | close hnext => exact unspaced_ne_nil hnext
  | member hlead hmark _ _ _ _ =>
    cases first with
    | true => exact unspaced_ne_nil (hlead ▸ hmark)
    | false => exact unspaced_ne_nil hlead

/-- The bracket is met whatever has been logged. -/
theorem nextElement_at_bracket {first : Bool} (h : Next ']' text rest) (w : List TimeoutWarning) :
    nextElement first ⟨text, w⟩ = .ok false ⟨unspaced text, w⟩ := nextElement_of_bracket h

theorem nextElement_at_item {first : Bool} {item : Bytes} (hlead : Lead first text item)
    (hnext : Next ch item rest) (hne : ch ≠ ']') (w : List TimeoutWarning) :
    nextElement first ⟨text, w⟩ = .ok true ⟨unspaced item, w⟩ := nextElement_of_lead hlead hnext hne

theorem nextElement_confined {first : Bool} (h : Elements first text rest) :
    Confined (nextElement first) text := by
  intro more _ log w
  cases h with
  | close hnext =>
    rw [nextElement_at_bracket (next_append hnext), nextElement_at_bracket hnext,
      unspaced_append (unspaced_ne_nil hnext)]
    rfl
  | item hlead hitem _ =>
    obtain ⟨ch, t, hnext, hne⟩ := exists_next_of_value hitem
    rw [nextElement_at_item (lead_append hlead) (next_append hnext) (hne .array),
      nextElement_at_item hlead hnext (hne .array), unspaced_append (unspaced_ne_nil hnext)]
    rfl

/-- What a loop over elements does depends on nothing behind the closing bracket. The clocks differ,
since they count the text behind it as well. -/
theorem elementsAlong_echoes (hsound : Sound r) (h : Encloses r) {clock clock' more : Bytes}
    {first : Bool} (hmore : Stops more) (htext : Elements first text [])
    (hclock : text.length ≤ clock.length) (hclock' : text.length ≤ clock'.length) :
    Echoes more (elementsAlong r clock' first) (elementsAlong r clock first) text := by
  have hlt := htext.length_lt
  rw [List.length_nil] at hlt
  -- both clocks are longer than what is left of the array, so neither runs out
  induction clock generalizing clock' first text with
  | nil => exact absurd (Nat.lt_of_lt_of_le hlt hclock) (Nat.not_lt_zero _)
  | cons b clock ih =>
    cases clock' with
    | nil => exact absurd (Nat.lt_of_lt_of_le hlt hclock') (Nat.not_lt_zero _)
    | cons b' clock' =>
      rw [elementsAlong, elementsAlong]
      refine (nextElement_confined htext more hmore).bind fun another rest w w' hread => ?_
      cases htext with
      | close hnext =>
        cases (nextElement_at_bracket hnext w).symm.trans hread
        exact pure_confined [] more hmore
      | @item _ _ item behind _ hlead hitem hothers =>
        obtain ⟨ch, t, hnext, hne⟩ := exists_next_of_value hitem
        cases (nextElement_at_item hlead hnext (hne .array) w).symm.trans hread
        have hvalue := value_unspaced_iff.2 hitem
        refine (h.confined hvalue hothers.stops more hmore).bind fun a rest w w' ha => ?_
        obtain rfl : rest = behind := (hsound _ _ _ ha).unique hvalue
        have hlead' := hlead.length_le
        have hitem' := hitem.length_lt
        rw [List.length_cons] at hclock hclock'
        have hlt' := hothers.length_lt
        refine (ih hothers (by omega) (by omega) hlt').bind fun as _ _ _ _ => ?_
        exact pure_confined (a :: as) more hmore

theorem elements_confined (hsound : Sound r) (h : Encloses r) (htext : Elements true text []) :
    Confined (elements r) text := by
  intro more hmore log w
  refine elementsAlong_echoes hsound h hmore htext (Nat.le_refl _) ?_ log w
  rw [List.length_append]
  exact Nat.le_add_right _ _

/-- Whatever comes of a loop over elements, something is left for the closing bracket. -/
theorem elementsAlong_leaves (hsound : Sound r) (h : Encloses r) {clock : Bytes} {first : Bool}
    (htext : Elements first text []) (hclock : text.length ≤ clock.length) :
    Leaves (elementsAlong r clock first) text := by
  have hlt := htext.length_lt
  rw [List.length_nil] at hlt
  induction clock generalizing first text with
  | nil => exact absurd (Nat.lt_of_lt_of_le hlt hclock) (Nat.not_lt_zero _)
  | cons b clock ih =>
    rw [elementsAlong]
    cases htext with
    | close hnext =>
      refine Leaves.bind_of_ok (nextElement_at_bracket hnext) ?_
      exact pure_leaves _ (by simpa using unspaced_ne_nil hnext)
    | @item _ _ item behind _ hlead hitem hothers =>
      obtain ⟨ch, t, hnext, hne⟩ := exists_next_of_value hitem
      refine Leaves.bind_of_ok (nextElement_at_item hlead hnext (hne .array)) ?_
      have hvalue := value_unspaced_iff.2 hitem
      refine (h.leaves hvalue hothers.stops (unspaced_ne_nil_of_elements hothers)).bind ?_
      intro a rest w w' ha
      obtain rfl : rest = behind := (hsound _ _ _ ha).unique hvalue
      have hlead' := hlead.length_le
      have hitem' := hitem.length_lt
      rw [List.length_cons] at hclock
      exact (ih hothers (by omega) hothers.length_lt).map _

end Encloses

theorem stringBody_leaves (h : Escaped text rest) (hrest : Stops rest)
    (hsome : unspaced rest ≠ []) : Leaves stringBody text := by
  obtain ⟨content, rfl, hcontent⟩ := h.spans
  have hwhole := hcontent [] trivial
  rw [List.append_nil] at hwhole
  exact (stringBody_confined hwhole).leaves hrest hsome

/-! ### Members -/

section Members

variable {σ : Type} {member : String → σ → Reader σ}

/-- The brace is met whatever has been logged. -/
theorem nextMember_at_brace {first : Bool} (h : Next '\x7d' text rest) (w : List TimeoutWarning) :
    nextMember first ⟨text, w⟩ = .ok false ⟨unspaced text, w⟩ := nextMember_of_brace h

theorem nextMember_at_name {first : Bool} {start : Bytes} (hlead : Lead first text start)
    (hmark : Next '"' start rest) (w : List TimeoutWarning) :
    nextMember first ⟨text, w⟩ = .ok true ⟨rest, w⟩ := nextMember_of_lead hlead hmark

theorem nextMember_confined {first : Bool} (h : Members first text rest) :
    Confined (nextMember first) text := by
  intro more _ log w
  cases h with
  | close hnext =>
    rw [nextMember_at_brace (next_append hnext), nextMember_at_brace hnext,
      unspaced_append (unspaced_ne_nil hnext)]
    rfl
  | member hlead hmark _ _ _ _ =>
    rw [nextMember_at_name (lead_append hlead) (next_append hmark), nextMember_at_name hlead hmark]
    rfl

/-- Behind a name the reader is confined to the colon and the value. -/
def MemberEncloses (member : String → σ → Reader σ) : Prop :=
  ∀ name s text item rest, Next ':' text item → Value item rest → Stops rest →
    Confined (member name s) text

/-- Whatever comes of a member, what follows it is left. -/
theorem MemberEncloses.leaves (h : MemberEncloses member) (name : String) (s : σ) {item : Bytes}
    (hcolon : Next ':' text item) (hitem : Value item rest) (hrest : Stops rest)
    (hsome : unspaced rest ≠ []) : Leaves (member name s) text := by
  obtain ⟨colon, rfl, hfront⟩ := hcolon.spans
  obtain ⟨value, rfl, hvalue⟩ := hitem.exists_piece
  have hwhole := h name s (colon ++ value) value [] (hfront value trivial) hvalue stops_nil
  rw [← List.append_assoc]
  exact hwhole.leaves hrest hsome

/-- What a loop over members does depends on nothing behind the closing brace. -/
theorem membersAlong_echoes (hsound : MemberSound member) (h : MemberEncloses member)
    {clock clock' more : Bytes} {first : Bool} {s : σ} (hmore : Stops more)
    (htext : Members first text []) (hclock : text.length ≤ clock.length)
    (hclock' : text.length ≤ clock'.length) :
    Echoes more (membersAlong member clock' first s) (membersAlong member clock first s) text := by
  have hlt := htext.length_lt
  rw [List.length_nil] at hlt
  induction clock generalizing clock' first s text with
  | nil => exact absurd (Nat.lt_of_lt_of_le hlt hclock) (Nat.not_lt_zero _)
  | cons b clock ih =>
    cases clock' with
    | nil => exact absurd (Nat.lt_of_lt_of_le hlt hclock') (Nat.not_lt_zero _)
    | cons b' clock' =>
      rw [membersAlong, membersAlong]
      refine (nextMember_confined htext more hmore).bind fun another rest w w' hread => ?_
      cases htext with
      | close hnext =>
        cases (nextMember_at_brace hnext w).symm.trans hread
        exact pure_confined s more hmore
      | @member _ _ start quoted colon item behind _ hlead hmark hname hcolon hitem hothers =>
        cases (nextMember_at_name hlead hmark w).symm.trans hread
        refine (stringBody_confined hname more hmore).bind fun name rest w w' hbody => ?_
        obtain rfl : rest = colon := (stringBody_eq_ok_iff.1 hbody).1.escaped.unique hname
        refine (h name s _ _ _ hcolon hitem hothers.stops more hmore).bind fun s rest w w' hs => ?_
        obtain ⟨item', hcolon', hitem'⟩ := hsound _ _ _ _ _ hs
        obtain ⟨-, rfl⟩ := hcolon'.unique hcolon
        obtain rfl : rest = behind := hitem'.unique hitem
        have h₁ := hlead.length_le
        have h₂ := hmark.length_lt
        have h₃ := hname.length_lt
        have h₄ := hcolon.length_lt
        have h₅ := hitem.length_lt
        rw [List.length_cons] at hclock hclock'
        exact ih hothers (by omega) (by omega) hothers.length_lt

theorem members_confined (hsound : MemberSound member) (h : MemberEncloses member) (s : σ)
    (htext : Members true text []) : Confined (members member s) text := by
  intro more hmore log w
  refine membersAlong_echoes hsound h hmore htext (Nat.le_refl _) ?_ log w
  rw [List.length_append]
  exact Nat.le_add_right _ _

/-- Whatever comes of a loop over members, something is left for the closing brace. -/
theorem membersAlong_leaves (hsound : MemberSound member) (h : MemberEncloses member)
    {clock : Bytes} {first : Bool} (s : σ) (htext : Members first text [])
    (hclock : text.length ≤ clock.length) : Leaves (membersAlong member clock first s) text := by
  have hlt := htext.length_lt
  rw [List.length_nil] at hlt
  induction clock generalizing first s text with
  | nil => exact absurd (Nat.lt_of_lt_of_le hlt hclock) (Nat.not_lt_zero _)
  | cons b clock ih =>
    rw [membersAlong]
    cases htext with
    | close hnext =>
      refine Leaves.bind_of_ok (nextMember_at_brace hnext) ?_
      exact pure_leaves _ (by simpa using unspaced_ne_nil hnext)
    | @member _ _ start quoted colon item behind _ hlead hmark hname hcolon hitem hothers =>
      refine Leaves.bind_of_ok (nextMember_at_name hlead hmark) ?_
      have hbody := stringBody_leaves hname (hcolon.stops rfl) (unspaced_ne_nil hcolon)
      refine hbody.bind fun name rest w w' hbody => ?_
      obtain rfl : rest = colon := (stringBody_eq_ok_iff.1 hbody).1.escaped.unique hname
      have hread := h.leaves name s hcolon hitem hothers.stops (unspaced_ne_nil_of_members hothers)
      refine hread.bind fun s rest w w' hs => ?_
      obtain ⟨item', hcolon', hitem'⟩ := hsound _ _ _ _ _ hs
      obtain ⟨-, rfl⟩ := hcolon'.unique hcolon
      obtain rfl : rest = behind := hitem'.unique hitem
      have h₁ := hlead.length_le
      have h₂ := hmark.length_lt
      have h₃ := hname.length_lt
      have h₄ := hcolon.length_lt
      have h₅ := hitem.length_lt
      rw [List.length_cons] at hclock
      exact ih s hothers (by omega) hothers.length_lt

end Members

/-! ### Values -/

theorem Confined.arrayOf {item : Reader Json} (hsound : Sound item) (h : Encloses item)
    (hnext : Next ch text t) (ht : Elements true t []) :
    Confined (arrayOf item) (unspaced text) := by
  refine .advance_bind hnext (((elements_confined hsound h ht).map _).closedBy fun w => ?_)
  exact closeArray_confined
    (Leaves.map (elementsAlong_leaves hsound h ht (Nat.le_refl _)) Json.array w)

theorem colon_at (h : Next ':' text rest) (w : List TimeoutWarning) :
    colon ⟨text, w⟩ = .ok () ⟨rest, w⟩ := colon_eq_ok_iff.2 ⟨rest, h, rfl⟩

theorem Confined.colon_bind {r : Reader α} (h : Next ':' text rest) (hr : Confined r rest) :
    Confined (do colon; r) text := by
  refine (colon_confined h).bind fun _ item w w' hread => ?_
  cases (colon_at h w).symm.trans hread
  exact hr

/-- A member whose value is read as it stands. -/
theorem Encloses.member {r : Reader α} (h : Encloses r) {σ : Type} (f : String → σ → α → σ) :
    MemberEncloses fun name s => do colon; return f name s (← r) := by
  intro name s text item rest hcolon hitem hrest
  exact .colon_bind hcolon ((h.confined hitem hrest).map _)

theorem Sound.member {r : Reader α} (h : Sound r) {σ : Type} (f : String → σ → α → σ) :
    MemberSound fun name s => do colon; return f name s (← r) := by
  intro name s c s' c' hread
  obtain ⟨u, c₁, hcolon, hread⟩ := bind_eq_ok_iff.1 hread
  obtain ⟨item, hnext, rfl⟩ := colon_eq_ok_iff.1 hcolon
  exact ⟨item, hnext, h.map _ _ _ _ hread⟩

theorem Confined.objectOf {item : Reader Json} (hsound : Sound item) (h : Encloses item)
    (hnext : Next ch text t) (ht : Members true t []) :
    Confined (objectOf item) (unspaced text) := by
  let take (name : String) (taken : List (String × Json)) (json : Json) := (name, json) :: taken
  have hmembers := members_confined (hsound.member take) (h.member take) [] ht
  have hleaves := membersAlong_leaves (hsound.member take) (h.member take) [] ht (Nat.le_refl _)
  refine .advance_bind hnext ((hmembers.map _).closedBy fun w => closeObject_confined ?_)
  exact hleaves.map _ w

/-- A reader of values is confined to them if it is where an array or an object starts. -/
theorem scalarOr_confined {nested : Char → Reader Json} (hvalue : Value text [])
    (harray : ∀ t, Next '[' text t → Elements true t [] → Confined (nested '[') (unspaced text))
    (hobject : ∀ t, Next '\x7b' text t → Members true t [] →
      Confined (nested '\x7b') (unspaced text)) : Confined (scalarOr nested) text := by
  obtain ⟨ch, t, hnext, -⟩ := exists_next_of_value hvalue
  have hfront := hvalue.front hnext
  apply Confined.peek_bind hnext
  dsimp only
  cases hscalar : scalar? ch with
  | some r => exact scalar?_confined hfront hnext hscalar
  | none =>
    rcases opens_of_scalar? hfront hscalar with ⟨rfl, h⟩ | ⟨rfl, h⟩
    · exact harray t hnext h
    · exact hobject t hnext h

/-- A tree is read off a value alone. -/
theorem value_encloses (depth : Nat) : Encloses (value depth) := by
  induction depth with
  | zero =>
    intro text hvalue
    apply scalarOr_confined hvalue
    · intro t hnext h
      exact fail_confined
    · intro t hnext h
      exact fail_confined
  | succ depth ih =>
    have hsound := (value_exact depth).sound
    intro text hvalue
    apply scalarOr_confined hvalue
    · intro t hnext h
      exact .arrayOf hsound ih hnext h
    · intro t hnext h
      exact .objectOf hsound ih hnext h

end Reader
end CredentialCeremony
