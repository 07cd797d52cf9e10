import CredentialCeremony.Proofs.Schema.Whole

set_option autoImplicit false

/-!
# Where a direct reader goes astray

Passing over a failure where it happened reads all that passing over it behind the value reads
(`Schema.refines`), and may read more: then the direct reader has gone astray (`Schema.GoesAstray`).
A document in which it does is held by no tree (`Schema.GoesAstray.illegible`).
-/

namespace CredentialCeremony

namespace Reader

variable {α β σ : Type}

/-- What the first reader reads is read by the second as well. -/
def Refines (r r' : Reader α) : Prop := ∀ c a c', r c = .ok a c' → r' c = .ok a c'

theorem Refines.refl (r : Reader α) : Refines r r := fun _ _ _ h => h

theorem Refines.bind {r r' : Reader α} {f f' : α → Reader β} (h : Refines r r')
    (hf : ∀ a, Refines (f a) (f' a)) : Refines (r >>= f) (r' >>= f') := by
  intro c b c' hread
  obtain ⟨a, c₁, ha, hread⟩ := bind_eq_ok_iff.1 hread
  exact bind_eq_ok_iff.2 ⟨a, c₁, h _ _ _ ha, hf a _ _ _ hread⟩

theorem Refines.map {r r' : Reader α} (h : Refines r r') (f : α → β) :
    Refines (do return f (← r)) (do return f (← r')) :=
  h.bind fun a => .refl (pure (f a))

/-- A failure behind a value is one that is passed over where it happened. -/
theorem tolerate_refines (r : Reader α) :
    Refines (tolerate .behindValue r) (tolerate .inPlace r) := by
  intro c o c' hread
  simp only [tolerate, attempt] at hread ⊢
  cases hr : r c with
  | ok a c₁ => simpa only [hr] using hread
  | error e failed =>
    cases hskip : skip c with
    | error e' passed => simp [hr, hskip] at hread
    | ok u passed =>
      simp only [hr, hskip] at hread ⊢
      split at hread
      · exact hread
      · cases hread

theorem Refines.nested {body body' : Nat → Reader α}
    (h : ∀ depth, Refines (body depth) (body' depth)) (depth : Nat) :
    Refines (nested depth body) (nested depth body') := by
  cases depth with
  | zero => exact .refl _
  | succ depth => exact (Refines.refl advance).bind fun _ => h depth

theorem Refines.elements {r r' : Reader α} (h : Refines r r') :
    Refines (elements r) (elements r') := by
  have halong (clock : Bytes) :
      ∀ first, Refines (elementsAlong r clock first) (elementsAlong r' clock first) := by
    induction clock with
    | nil => exact fun _ => .refl _
    | cons b clock ih =>
      intro first
      refine (Refines.refl (nextElement first)).bind fun another => ?_
      cases another with
      | true => exact h.bind fun a => (ih false).bind fun as => .refl _
      | false => exact .refl _
  exact fun c => halong c.rest true c

theorem members_refines {member member' : String → σ → Reader σ}
    (h : ∀ name s, Refines (member name s) (member' name s)) (s : σ) :
    Refines (members member s) (members member' s) := by
  have halong (clock : Bytes) : ∀ first s,
      Refines (membersAlong member clock first s) (membersAlong member' clock first s) := by
    induction clock with
    | nil => exact fun _ _ => .refl _
    | cons b clock ih =>
      intro first s
      refine (Refines.refl (nextMember first)).bind fun another => ?_
      cases another with
      | true => exact (Refines.refl stringBody).bind fun name => (h name s).bind fun s => ih false s
      | false => exact .refl _
  exact fun c => halong c.rest true s c

theorem Refines.array {element element' : Nat → Reader α}
    (h : ∀ depth, Refines (element depth) (element' depth)) (depth : Nat) :
    Refines (array depth element) (array depth element') := by
  refine (Refines.refl peek).bind fun o => ?_
  split
  · exact .nested (fun depth => (h depth).elements.bind fun _ => .refl _) depth
  · exact .refl _

theorem Refines.nullable {r r' : Reader α} (h : Refines r r') :
    Refines (nullable r) (nullable r') := by
  refine (Refines.refl peek).bind fun o => ?_
  split
  · exact .refl _
  · exact h.map some

theorem orElse_refines (r : Reader α) (default : α) :
    Refines (orElse .behindValue r default) (orElse .inPlace r default) :=
  (tolerate_refines r).bind fun _ => .refl _

end Reader

open Reader

mutual

/-- What is read where failures are passed over behind values only is read directly, too. -/
theorem Schema.refines : {α : Type} → (s : Schema α) → (depth : Nat) →
    Refines (s.read .behindValue depth) (s.read .inPlace depth)
  | _, .string, _ => .refl _
  | _, .bytes, _ => .refl _
  | _, .flag, _ => .refl _
  | _, .word, _ => .refl _
  | _, .integer, _ => .refl _
  | _, .timeout, depth => (tolerate_refines (value depth)).bind fun _ => .refl _
  | _, .spelled _, _ => .refl _
  | _, .choice _, _ => .refl _
  | _, .lenient c default, depth => orElse_refines (Reader.choice depth c) default
  | _, .lenientOption c, depth => orElse_refines (Reader.nullable (Reader.choice depth c)) none
  | _, .nullable s, depth => (Schema.refines s depth).nullable
  | _, .list s, depth => .array (Schema.refines s) depth
  | _, .tolerant _, _ => .refl _
  | _, .listOrNull s, depth => (Schema.refines s depth).nullable.map fun o => o.getD []
  | _, .dictionary, _ => .refl _
  | _, .record fields _, depth => by
    refine (Refines.refl peek).bind fun o => ?_
    split
    · refine .nested (fun depth => ?_) depth
      have hmembers := members_refines (Fields.member_refines fields depth) fields.unread
      exact hmembers.bind fun _ => .refl _
    · refine .nested (fun depth => ?_) depth
      exact (Fields.elements_refines fields depth true).bind fun _ => .refl _
    · exact .refl _
  | _, .extensible name known, depth => by
    refine (Refines.refl peek).bind fun o => ?_
    split
    · refine .nested (fun depth => ?_) depth
      refine (members_refines (fun given read => ?_) _).bind fun _ => .refl _
      split
      · split
        · exact .refl _
        · exact (Refines.refl colon).bind fun _ => (Schema.refines known depth).nullable.map _
      · exact .refl _
    · exact .refl _

theorem Fields.member_refines : {τ σ : Type} → (fields : Fields τ σ) → (depth : Nat) →
    (given : String) → (read : σ) → Refines (fields.readMember .behindValue depth given read)
      (fields.readMember .inPlace depth given read)
  | _, _, .nil, _, _, _ => .refl _
  | _, _, .cons name aliases schema _ rest, depth, given, (read, others) => by
    simp only [Fields.readMember]
    split
    · cases read with
      | some a => exact .refl _
      | none => exact (Refines.refl colon).bind fun _ => (Schema.refines schema depth).map _
    · exact (Fields.member_refines rest depth given others).map _

theorem Fields.elements_refines : {τ σ : Type} → (fields : Fields τ σ) → (depth : Nat) →
    (first : Bool) → Refines (fields.readElements .behindValue depth first)
      (fields.readElements .inPlace depth first)
  | _, _, .nil, _, _ => .refl _
  | _, _, .cons _ _ schema _ rest, depth, first => by
    refine (Refines.refl (nextElement first)).bind fun another => ?_
    cases another with
    | true =>
      exact (Schema.refines schema depth).bind fun a =>
        (Fields.elements_refines rest depth false).map _
    | false => exact .refl _

end

/-! ## Going astray -/

variable {α : Type} {s : Schema α} {text : Bytes} {a : α} {w : List TimeoutWarning}

/-- Something is read directly off the text that is not read off it where failures are passed over
behind values only. -/
def Schema.GoesAstray (s : Schema α) (text : Bytes) : Prop :=
  ∃ a w, s.readText text = ⟨.ok a, w⟩ ∧ s.readStrictly text ≠ ⟨.ok a, w⟩

/-- What is read behind values only is read directly. -/
theorem Schema.readText_of_readStrictly (h : s.readStrictly text = ⟨.ok a, w⟩) :
    s.readText text = ⟨.ok a, w⟩ := by
  obtain ⟨c, hread, hrest, hwarnings⟩ := run_eq_ok_iff.1 h
  exact run_eq_ok_iff.2 ⟨c, Schema.refines s maxDepth _ _ _ hread, hrest, hwarnings⟩

/-- A reader that does not go astray reads what stands behind values. -/
theorem Schema.readText_eq_ok_iff_readStrictly (h : ¬ s.GoesAstray text) :
    s.readText text = ⟨.ok a, w⟩ ↔ s.readStrictly text = ⟨.ok a, w⟩ := by
  refine ⟨fun hread => ?_, readText_of_readStrictly⟩
  by_contra hne
  exact h ⟨a, w, hread, hne⟩

/-- The documents in which a reader goes astray are illegible ones. -/
theorem Schema.GoesAstray.illegible (h : s.GoesAstray text) (hdocument : Grammar.Document text) :
    Illegible text := by
  obtain ⟨a, w, hread, hne⟩ := h
  refine ⟨hdocument, fun json htree => hne ?_⟩
  obtain ⟨htame, hx⟩ := (readText_eq_ok_iff htree).1 hread
  exact run_read_of_tame .behindValue htree htame hx

instance [DecidableEq α] (s : Schema α) (text : Bytes) : Decidable (s.GoesAstray text) :=
  decidable_of_iff (∃ a ∈ (s.readText text).value?, ¬ ((s.readStrictly text).value? = some a ∧
      (s.readStrictly text).warnings = (s.readText text).warnings)) (by
    constructor
    · rintro ⟨a, hread, hne⟩
      obtain ⟨w, hread⟩ := Reading.value?_eq_some_iff_exists.1 hread
      refine ⟨a, w, hread, fun hstrict => hne ?_⟩
      rw [hstrict, hread]
      exact ⟨rfl, rfl⟩
    · rintro ⟨a, w, hread, hne⟩
      refine ⟨a, Reading.value?_eq_some_iff_exists.2 ⟨w, hread⟩, fun ⟨hvalue, hwarnings⟩ => hne ?_⟩
      obtain ⟨v, hstrict⟩ := Reading.value?_eq_some_iff_exists.1 hvalue
      rw [hstrict, hread] at hwarnings
      exact hstrict.trans (congrArg (Reading.mk (.ok a)) hwarnings))

end CredentialCeremony
