import CredentialCeremony.Proofs.Schema.Tame

set_option autoImplicit false

/-!
# What a tree answers

Reading out of a tree keeps a log of warnings, but never looks at it: entries are added behind what
is there, and the outcome is the same with any log before it (`Schema.extract_logs`). A value can
therefore be spoken of without its log, as what the tree answers (`Extractor.answer?`).

Main statement: a tolerant list answers what its elements answer by themselves, in order
(`Schema.answer?_tolerant_eq_some_iff`).
-/

namespace CredentialCeremony

namespace Extractor

variable {α β σ : Type}

/-- A result that was logged behind the given entries. -/
def behind (w : List TimeoutWarning) :
    EStateM.Result ReadError (List TimeoutWarning) α →
      EStateM.Result ReadError (List TimeoutWarning) α
  | .ok a v => .ok a (w ++ v)
  | .error e v => .error e (w ++ v)

/-- The outcome is the same whatever has been logged before, and so are the entries added to it. -/
def Logs (x : Extractor α) : Prop := ∀ w, x w = behind w (x [])

/-- The value that is answered, if there is one, apart from the log. -/
def answer? (x : Extractor α) : Option α :=
  match x [] with
  | .ok a _ => some a
  | .error _ _ => none

theorem behind_append (v w : List TimeoutWarning)
    (r : EStateM.Result ReadError (List TimeoutWarning) α) :
    behind (v ++ w) r = behind v (behind w r) := by
  cases r <;> simp [behind]

theorem logs_pure (a : α) : Logs (pure a) := by
  intro w
  simp [behind, pure, EStateM.pure]

theorem logs_throw (e : ReadError) : Logs (throw e : Extractor α) := by
  intro w
  exact congrArg (EStateM.Result.error e) (List.append_nil w).symm

theorem logs_ofExcept (r : Except ReadError α) : Logs (ofExcept r) := by
  cases r with
  | ok a => exact logs_pure a
  | error e => exact logs_throw e

theorem logs_warn (t : TimeoutWarning) : Logs (warn t) := by
  intro w
  simp [behind, warn]

theorem Logs.bind {x : Extractor α} {f : α → Extractor β} (hx : x.Logs) (hf : ∀ a, (f a).Logs) :
    (x >>= f).Logs := by
  intro w
  -- what the first part logs comes before what the second part logs
  have hxw := hx w
  cases h : x [] with
  | ok a v =>
    rw [h] at hxw
    have hxw : x w = .ok a (w ++ v) := hxw
    rw [bind_of_ok hxw, bind_of_ok h, hf a (w ++ v), hf a v, behind_append]
  | error e v =>
    rw [h] at hxw
    have hxw : x w = .error e (w ++ v) := hxw
    rw [bind_of_error hxw, bind_of_error h]
    rfl

theorem Logs.attempt {x : Extractor α} (hx : x.Logs) : (attempt x).Logs := by
  intro w
  have hxw := hx w
  unfold Extractor.attempt
  cases h : x [] with
  | ok a v =>
    rw [h] at hxw
    simp only [hxw, behind]
  | error e v =>
    rw [h] at hxw
    simp only [hxw, behind]

/-- With any log before it, the answer is the one without. -/
theorem Logs.answers_iff {x : Extractor α} (hx : x.Logs) (w : List TimeoutWarning) {a : α} :
    (∃ w', x w = .ok a w') ↔ x.answer? = some a := by
  rw [hx w, answer?]
  cases x [] <;> simp [behind]

theorem Logs.of_ok {x : Extractor α} (hx : x.Logs) {w w' : List TimeoutWarning} {a : α}
    (h : x w = .ok a w') : x.answer? = some a :=
  (hx.answers_iff w).1 ⟨w', h⟩

@[simp] theorem answer?_pure (a : α) : answer? (pure a) = some a := rfl

@[simp] theorem answer?_throw (e : ReadError) : answer? (throw e : Extractor α) = none := rfl

@[simp] theorem answer?_ofExcept (r : Except ReadError α) : (ofExcept r).answer? = r.toOption := by
  cases r <;> rfl

/-- Of two parts in turn, the second is answered for what the first answers. -/
theorem answer?_bind {x : Extractor α} {f : α → Extractor β} (hf : ∀ a, (f a).Logs) :
    (x >>= f).answer? = x.answer?.bind fun a => (f a).answer? := by
  unfold answer?
  cases h : x [] with
  | ok a v =>
    rw [bind_of_ok h, hf a v, Option.bind_some]
    cases f a [] <;> rfl
  | error e v =>
    rw [bind_of_error h]
    rfl

theorem answer?_map {x : Extractor α} (f : α → β) :
    (do return f (← x) : Extractor β).answer? = x.answer?.map f := by
  rw [answer?_bind fun a => logs_pure (f a)]
  cases x.answer? <;> rfl

/-- An attempt always answers. -/
theorem answer?_attempt (x : Extractor α) : (attempt x).answer? = some x.answer? := by
  unfold answer? attempt
  cases x [] <;> rfl

/-! ## Elements and members -/

theorem logs_readable {x : Json → Extractor α} (hx : ∀ json, (x json).Logs) (items : List Json) :
    (readable x items).Logs := by
  induction items with
  | nil => exact logs_pure []
  | cons json items ih => exact (hx json).attempt.bind fun o => ih.bind fun others => logs_pure _

theorem logs_all {x : Json → Extractor α} (hx : ∀ json, (x json).Logs) (items : List Json) :
    (all x items).Logs := by
  induction items with
  | nil => exact logs_pure []
  | cons json items ih => exact (hx json).bind fun a => ih.bind fun others => logs_pure _

theorem logs_foldlM {ι : Type} {take : ι → σ → Extractor σ} (h : ∀ member s, (take member s).Logs)
    (members : List ι) (s : σ) : (members.foldlM (fun s member => take member s) s).Logs := by
  induction members generalizing s with
  | nil => exact logs_pure s
  | cons member members ih => exact (h member s).bind fun s₁ => ih s₁

theorem logs_overMembers {x : String → Json → σ → Extractor σ}
    (hx : ∀ name json s, (x name json s).Logs) (members : List (String × Json)) (s : σ) :
    (Reader.overMembers x members s).Logs := by
  unfold Reader.overMembers
  exact logs_foldlM (fun member s => hx member.1 member.2 s) members s

/-- A tolerant list always answers: what its elements answer by themselves, in order. -/
theorem answer?_readable {x : Json → Extractor α} (hx : ∀ json, (x json).Logs)
    (items : List Json) :
    (readable x items).answer? = some (items.filterMap fun json => (x json).answer?) := by
  induction items with
  | nil => rfl
  | cons json items ih =>
    rw [readable, answer?_bind fun o => (logs_readable hx items).bind fun others => logs_pure _,
      answer?_attempt, Option.bind_some, answer?_map, ih, Option.map_some, List.filterMap_cons]
    cases (x json).answer? <;> rfl

/-! ## Leaves -/

theorem logs_byte (json : Json) : (byte json).Logs := by
  unfold byte
  split
  · split
    · exact logs_pure _
    · exact logs_throw _
  · exact logs_throw _

theorem logs_string (json : Json) : (string json).Logs := by
  unfold string
  split
  · exact logs_pure _
  · exact logs_throw _

theorem logs_bytes (json : Json) : (bytes json).Logs := by
  unfold bytes
  split
  · split
    · exact logs_pure _
    · exact logs_throw _
  · exact logs_all logs_byte _
  · exact logs_throw _

theorem logs_word (json : Json) : (word json).Logs := by
  unfold word
  split
  · split
    · exact logs_pure _
    · exact logs_throw _
  · exact logs_throw _

theorem logs_integer (json : Json) : (integer json).Logs := by
  unfold integer
  split
  · split
    · exact logs_pure _
    · exact logs_throw _
  · exact logs_throw _

theorem logs_timeout (json : Json) : (timeout json).Logs := by
  unfold timeout
  split
  · exact logs_pure _
  · exact (logs_warn _).bind fun _ => logs_pure _

theorem logs_choice (c : Choice α) (json : Json) : (choice c json).Logs := by
  unfold choice
  split
  · exact logs_ofExcept _
  · refine (logs_ofExcept _).bind fun a => ?_
    split
    · exact logs_pure _
    · exact logs_throw _
  · exact logs_throw _

theorem logs_nullOr {x : Json → Extractor α} (hx : ∀ json, (x json).Logs) (json : Json) :
    (Reader.nullOr x json).Logs := by
  unfold Reader.nullOr
  split
  · exact logs_pure _
  · exact (hx _).bind fun a => logs_pure _

end Extractor

open Extractor

theorem logs_extensibleMember {κ : Type} {known : Schema κ}
    (hknown : ∀ json, (known.extract json).Logs)
    (name given : String) (json : Json) (read : Option (Option κ) × List (String × Json)) :
    (extensibleMember name known given json read).Logs := by
  unfold extensibleMember
  split
  · split
    · exact logs_throw _
    · exact logs_pure _
    · exact (hknown _).bind fun a => logs_pure _
  · exact logs_pure _

mutual

/-- Reading out of a tree never looks at the log. -/
theorem Schema.extract_logs : {α : Type} → (s : Schema α) → (json : Json) → (s.extract json).Logs
  | _, .string, json => logs_string json
  | _, .bytes, json => logs_bytes json
  | _, .flag, json => by
    cases json with
    | bool b => exact logs_pure b
    | _ => exact logs_throw _
  | _, .word, json => logs_word json
  | _, .integer, json => logs_integer json
  | _, .timeout, json => logs_timeout json
  | _, .spelled s, json => (logs_string json).bind fun text => logs_ofExcept _
  | _, .choice c, json => logs_choice c json
  | _, .lenient c default, json => (logs_choice c json).attempt.bind fun o => logs_pure _
  | _, .lenientOption c, json => by
    rw [extract_lenientOption]
    unfold Reader.choiceOrNone
    split
    · exact logs_pure _
    · exact (logs_choice c _).attempt
  | _, .nullable s, json => by
    rw [extract_nullable]
    exact logs_nullOr s.extract_logs json
  | _, .list s, json => by
    cases json with
    | array items => exact logs_all s.extract_logs items
    | _ => exact logs_throw _
  | _, .tolerant s, json => by
    cases json with
    | array items => exact logs_readable s.extract_logs items
    | _ => exact logs_throw _
  | _, .listOrNull s, json => by
    rw [extract_listOrNull]
    exact (logs_nullOr s.extract_logs json).bind fun o => logs_pure _
  | _, .dictionary, json => by
    cases json with
    | object members =>
      rw [Schema.extract, Reader.strings_eq_overMembers]
      exact logs_overMembers (fun name json d => (logs_string json).bind fun s => logs_pure _) _ _
    | _ => exact logs_throw _
  | _, .record fields layout, json => by
    cases json with
    | object members =>
      refine (logs_overMembers fields.extractMember_logs members fields.unread).bind fun read => ?_
      exact (logs_ofExcept _).bind fun parts => logs_pure _
    | array items => exact (fields.extractElements_logs items).bind fun parts => logs_pure _
    | _ => exact logs_throw _
  | _, .extensible name known, json => by
    cases json with
    | object members =>
      have hmembers : (Reader.overMembers (extensibleMember name known) members (none, [])).Logs :=
        logs_overMembers (logs_extensibleMember known.extract_logs name) members _
      exact hmembers.bind fun read => logs_pure _
    | _ => exact logs_throw _

theorem Fields.extractMember_logs : {τ σ : Type} → (fields : Fields τ σ) → (given : String) →
    (json : Json) → (read : σ) → (fields.extractMember given json read).Logs
  | _, _, .nil, _, _, read => logs_pure read
  | _, _, .cons name aliases schema _ rest, given, json, (known, others) => by
    simp only [Fields.extractMember]
    split
    · cases known with
      | some a => exact logs_throw _
      | none => exact (schema.extract_logs json).bind fun a => logs_pure _
    · exact (rest.extractMember_logs given json others).bind fun taken => logs_pure _

theorem Fields.extractElements_logs : {τ σ : Type} → (fields : Fields τ σ) →
    (items : List Json) → (fields.extractElements items).Logs
  | _, _, .nil, items => by
    simp only [Fields.extractElements]
    split
    · exact logs_pure _
    · exact logs_throw _
  | _, _, .cons _ _ schema presence rest, items => by
    cases items with
    | nil =>
      simp only [Fields.extractElements]
      split
      · exact logs_pure _
      · exact logs_throw _
    | cons json items =>
      exact (schema.extract_logs json).bind fun a =>
        (rest.extractElements_logs items).bind fun others => logs_pure _

end

/-- A tolerant list is answered by an array, with what its elements answer by themselves. -/
theorem Schema.answer?_tolerant_eq_some_iff {α : Type} {s : Schema α} {json : Json} {as : List α} :
    ((Schema.tolerant s).extract json).answer? = some as ↔
      ∃ items, json = .array items ∧ as = items.filterMap fun item => (s.extract item).answer? := by
  cases json with
  | array items =>
    rw [Schema.extract, answer?_readable s.extract_logs, Option.some.injEq]
    simp [eq_comm]
  | _ => simp [Schema.extract, fail]

end CredentialCeremony
