import CredentialCeremony.Proofs.Reading.Run
import CredentialCeremony.Proofs.Reading.Token

set_option autoImplicit false

/-!
# Readers go onward

Whether a reader succeeds or fails, what it leaves is an end of the text that it was given
(`Reader.Onward`). So it never goes back, and wherever it goes on after a failure that is passed over,
it reads a part of the text. This says nothing about where that part starts.
-/

namespace CredentialCeremony

open Grammar

/-! ## Scanners -/

section Scanners

variable {α : Type}

/-- What a scanner leaves of the text, whether it fails or not. -/
def scannedRest : Except Bytes (α × Bytes) → Bytes
  | .ok (_, rest) => rest
  | .error rest => rest

@[simp] theorem scannedRest_ok (a : α) (rest : Bytes) : scannedRest (.ok (a, rest)) = rest := rfl

@[simp] theorem scannedRest_error (rest : Bytes) :
    scannedRest (.error rest : Except Bytes (α × Bytes)) = rest := rfl

@[simp] theorem scannedRest_before (bytes : Bytes) (r : Except Bytes (Bytes × Bytes)) :
    scannedRest (before bytes r) = scannedRest r := by
  cases r <;> rfl

theorem scanWord_suffix (word : List Char) (text : Bytes) :
    scannedRest (scanWord word text) <:+ text := by
  fun_induction scanWord word text <;> simp_all [List.suffix_cons_iff]

theorem scanString_suffix (text : Bytes) : scannedRest (scanString text) <:+ text := by
  fun_induction scanString text <;> simp_all [List.suffix_cons_iff]

theorem Chars.suffix {text content rest : Bytes} (h : Chars text content rest) :
    rest <:+ text := by
  have hrest := scanString_suffix text
  rwa [scanString_eq_ok_iff.2 h] at hrest

theorem takeDigits_suffix (text : Bytes) : (takeDigits text).2 <:+ text := by
  fun_induction takeDigits text <;> simp_all [List.suffix_cons_iff]

theorem scanExponentDigits_suffix (exponent : Nat) (text : Bytes) :
    (scanExponentDigits exponent text).2 <:+ text := by
  fun_induction scanExponentDigits exponent text <;> simp_all [List.suffix_cons_iff]

theorem finishDouble_suffix (negative : Bool) (significand : Nat) (exponent : Int) (text : Bytes) :
    scannedRest (finishDouble negative significand exponent text) <:+ text := by
  fun_cases finishDouble negative significand exponent text <;> simp

theorem scanSigned_suffix (negative : Bool) (significand : Nat) (start : Int) (down : Bool)
    (text : Bytes) : scannedRest (scanSigned negative significand start down text) <:+ text := by
  fun_cases scanSigned negative significand start down text with
  | case1 => exact List.suffix_refl []
  | case2 b text c _ exponent rest hscan =>
    have hrest := scanExponentDigits_suffix (c.toNat - 48) text
    rw [hscan] at hrest
    have hfinish := finishDouble_suffix negative significand
      (if down then start - exponent else start + exponent) rest
    exact (hfinish.trans hrest).trans (List.suffix_cons b text)
  | case3 b text c _ rest hscan =>
    have hrest := scanExponentDigits_suffix (c.toNat - 48) text
    rw [hscan] at hrest
    exact hrest.trans (List.suffix_cons b text)
  | case4 b text c _ rest hscan =>
    have hrest := scanExponentDigits_suffix (c.toNat - 48) text
    rw [hscan] at hrest
    exact ((takeDigits_suffix rest).trans hrest).trans (List.suffix_cons b text)
  | case5 b text => exact List.suffix_cons b text

theorem scanExponent_suffix (negative : Bool) (significand : Nat) (start : Int) (text : Bytes) :
    scannedRest (scanExponent negative significand start text) <:+ text := by
  have hsigned := scanSigned_suffix negative significand start
  fun_cases scanExponent negative significand start text with
  | case1 => exact List.suffix_refl []
  | case2 b text => exact (hsigned false text).trans (List.suffix_cons b text)
  | case3 b text => exact (hsigned true text).trans (List.suffix_cons b text)
  | case4 b text => exact hsigned false (b :: text)

theorem exponentMark?_suffix {text rest : Bytes} (h : exponentMark? text = some rest) :
    rest <:+ text := by
  cases text with
  | nil => cases h
  | cons b text =>
    rw [exponentMark?] at h
    split at h
    · cases h
      exact List.suffix_cons b rest
    · cases h

theorem scanFraction_suffix (negative : Bool) (significand : Nat) (start : Int) (text : Bytes) :
    scannedRest (scanFraction negative significand start text) <:+ text := by
  have hdigits := takeDigits_suffix text
  fun_cases scanFraction negative significand start text with
  | case1 => exact List.suffix_refl text
  | case2 digits rest htake _ significand' leftOut _ exponent rest' hmark =>
    rw [htake] at hdigits
    exact ((scanExponent_suffix ..).trans (exponentMark?_suffix hmark)).trans hdigits
  | case3 digits rest htake _ significand' leftOut _ exponent hmark =>
    rw [htake] at hdigits
    exact (finishDouble_suffix ..).trans hdigits

theorem scanNumeral_suffix (negative : Bool) (text : Bytes) :
    scannedRest (scanNumeral negative text) <:+ text := by
  cases text with
  | nil => exact List.suffix_refl []
  | cons b text =>
    have hdigits : (takeDigits text).2 <:+ b :: text :=
      (takeDigits_suffix text).trans (List.suffix_cons b text)
    simp only [scanNumeral]
    split
    · exact List.suffix_cons b text
    split
    · exact List.suffix_cons b text
    -- what follows the whole part decides between the three kinds of numerals
    split
    · rename_i hmark
      exact ((scanExponent_suffix ..).trans (exponentMark?_suffix hmark)).trans hdigits
    · split
      · exact List.nil_suffix
      · exact (finishDouble_suffix ..).trans List.nil_suffix
    · rename_i b' rest hrest _
      rw [hrest] at hdigits
      split
      · exact ((scanFraction_suffix ..).trans (List.suffix_cons b' rest)).trans hdigits
      · split
        · exact hdigits
        · exact (finishDouble_suffix ..).trans hdigits

theorem passString_suffix (text : Bytes) : scannedRest (passString text) <:+ text := by
  fun_induction passString text <;> simp_all [List.suffix_cons_iff]

/-- What is left by a scanner that answers nothing but that. -/
def passedRest : Except Bytes Bytes → Bytes
  | .ok rest => rest
  | .error rest => rest

theorem passDigits_suffix (text : Bytes) : passedRest (passDigits text) <:+ text := by
  simp only [passDigits]
  split
  · exact List.suffix_refl text
  · exact takeDigits_suffix text

theorem passWhole_suffix (text : Bytes) : passedRest (passWhole text) <:+ text := by
  cases text with
  | nil => exact List.suffix_refl []
  | cons b text =>
    rw [passWhole]
    split
    · split <;> exact List.suffix_cons b text
    · exact passDigits_suffix (b :: text)

theorem passFraction_suffix (text : Bytes) : passedRest (passFraction text) <:+ text := by
  cases text with
  | nil => exact List.suffix_refl []
  | cons b text =>
    rw [passFraction]
    split
    · exact (passDigits_suffix text).trans (List.suffix_cons b text)
    · exact List.suffix_refl (b :: text)

theorem passExponent_suffix (text : Bytes) : passedRest (passExponent text) <:+ text := by
  fun_cases passExponent text with
  | case1 => exact List.suffix_refl text
  | case2 => exact List.nil_suffix
  | case3 b rest hmark | case4 b rest hmark =>
    have hrest := exponentMark?_suffix hmark
    exact ((passDigits_suffix rest).trans (List.suffix_cons b rest)).trans hrest
  | case5 b rest hmark =>
    exact (passDigits_suffix (b :: rest)).trans (exponentMark?_suffix hmark)

theorem passed_bind_suffix {x : Except Bytes Bytes} {f : Bytes → Except Bytes (α × Bytes)}
    {text : Bytes} (hx : passedRest x <:+ text) (hf : ∀ rest, scannedRest (f rest) <:+ rest) :
    scannedRest (x >>= f) <:+ text := by
  cases x with
  | error rest => exact hx
  | ok rest => exact (hf rest).trans hx

theorem passNumeral_suffix (text : Bytes) : scannedRest (passNumeral text) <:+ text := by
  refine passed_bind_suffix (passWhole_suffix text) fun rest => ?_
  refine passed_bind_suffix (passFraction_suffix rest) fun rest => ?_
  exact passed_bind_suffix (passExponent_suffix rest) List.suffix_refl

end Scanners

/-! ## Readers -/

namespace Reader

variable {α β σ : Type}

/-- What is left of the text, whether a value was read or not. -/
def left : EStateM.Result ReadError Cursor α → Bytes
  | .ok _ c => c.rest
  | .error _ c => c.rest

/-- Whether it succeeds or fails, the reader leaves an end of the text. -/
def Onward (r : Reader α) : Prop := ∀ c, left (r c) <:+ c.rest

theorem Onward.of_ok {r : Reader α} (h : Onward r) {c c' : Cursor} {a : α} (hr : r c = .ok a c') :
    c'.rest <:+ c.rest := by
  have hleft := h c
  rwa [hr] at hleft

theorem Onward.of_error {r : Reader α} (h : Onward r) {c c' : Cursor} {e : ReadError}
    (hr : r c = .error e c') : c'.rest <:+ c.rest := by
  have hleft := h c
  rwa [hr] at hleft

theorem pure_onward (a : α) : Onward (pure a) := fun c => List.suffix_refl c.rest

theorem throw_onward (e : ReadError) : Onward (throw e : Reader α) := fun c => List.suffix_refl c.rest

theorem fail_onward : Onward (fail : Reader α) := throw_onward _

theorem Onward.bind {r : Reader α} {f : α → Reader β} (hr : Onward r) (hf : ∀ a, Onward (f a)) :
    Onward (r >>= f) := by
  intro c
  cases h : r c with
  | ok a c₁ =>
    rw [bind_of_ok h]
    exact (hf a c₁).trans (hr.of_ok h)
  | error e c₁ =>
    rw [bind_of_error h]
    exact hr.of_error h

theorem Onward.bind_option {r : Reader (Option α)} {f : Option α → Reader β} (hr : Onward r)
    (hnone : Onward (f none)) (hsome : ∀ a, Onward (f (some a))) : Onward (r >>= f) := by
  refine hr.bind fun o => ?_
  cases o with
  | none => exact hnone
  | some a => exact hsome a

theorem peek_onward : Onward peek := fun _ => List.dropWhile_suffix _

theorem advance_onward : Onward advance := fun c => List.tail_suffix c.rest

theorem warn_onward (w : TimeoutWarning) : Onward (warn w) := fun c => List.suffix_refl c.rest

theorem scan_onward {scanner : Bytes → Except Bytes (α × Bytes)}
    (h : ∀ text, scannedRest (scanner text) <:+ text) : Onward (scan scanner) := by
  intro c
  have hrest := h c.rest
  rw [scan]
  cases hscan : scanner c.rest <;> rwa [hscan] at hrest

theorem extract_onward (x : Extractor α) : Onward (extract x) := by
  intro c
  rw [extract]
  cases x c.warnings <;> exact List.suffix_refl c.rest

theorem Onward.attempt {r : Reader α} (h : Onward r) : Onward (attempt r) := by
  intro c
  have hleft := h c
  rw [Reader.attempt]
  cases hr : r c <;> rwa [hr] at hleft

theorem Onward.tolerate {r : Reader α} (h : Onward r) (mode : Resumption) :
    Onward (tolerate mode r) := by
  cases mode with
  | inPlace => exact h.attempt
  | behindValue =>
    intro c
    have hleft := h c
    simp only [Reader.tolerate]
    cases hr : r c with
    | ok a c₁ => rwa [hr] at hleft
    | error e c₁ =>
      rw [hr] at hleft
      cases skip c with
      | ok u passed =>
        simp only
        split <;> exact hleft
      | error e' c₂ => exact hleft

theorem Onward.closedBy {body : Reader α} {closing : Reader Unit} (hbody : Onward body)
    (hclosing : Onward closing) : Onward (closedBy body closing) := by
  intro c
  have hleft := hbody c
  rw [Reader.closedBy]
  cases hb : body c with
  | ok a c₁ | error e c₁ =>
    rw [hb] at hleft
    have hrest := (hclosing c₁).trans hleft
    simp only
    cases hc : closing c₁ <;> rwa [hc] at hrest

theorem word_onward (rest : String) : Onward (word rest) :=
  scan_onward (scanWord_suffix rest.toList)

theorem stringBody_onward : Onward stringBody := by
  refine (scan_onward scanString_suffix).bind fun taken => ?_
  cases ofUtf8? taken with
  | some s => exact pure_onward s
  | none => exact fail_onward

theorem numeral_onward (negative : Bool) : Onward (numeral negative) :=
  scan_onward (scanNumeral_suffix negative)

/-! ## Arrays, objects and values -/

theorem colon_onward : Onward colon := by
  apply peek_onward.bind
  intro o
  split
  · exact advance_onward
  · exact fail_onward

theorem closeArray_onward : Onward closeArray := by
  apply peek_onward.bind
  intro o
  split
  · exact advance_onward
  · exact advance_onward.bind fun _ => fail_onward
  · exact fail_onward

theorem closeObject_onward : Onward closeObject := by
  apply peek_onward.bind
  intro o
  split
  · exact advance_onward
  · exact fail_onward

theorem nextElement_onward (first : Bool) : Onward (nextElement first) := by
  apply peek_onward.bind
  intro o
  split
  · exact fail_onward
  · exact pure_onward false
  · split
    · exact pure_onward true
    split
    · refine advance_onward.bind fun _ => peek_onward.bind fun o => ?_
      split
      · exact fail_onward
      · exact fail_onward
      · exact pure_onward true
    · exact fail_onward

theorem nextMember_onward (first : Bool) : Onward (nextMember first) := by
  have hopen : Onward (do advance; return true) := advance_onward.bind fun _ => pure_onward true
  apply peek_onward.bind
  intro o
  split
  · exact fail_onward
  · exact pure_onward false
  · split
    · split
      · exact hopen
      · exact fail_onward
    split
    · refine advance_onward.bind fun _ => peek_onward.bind fun o => ?_
      split
      · exact hopen
      · exact fail_onward
    · exact fail_onward

theorem Onward.elements {element : Reader α} (h : Onward element) : Onward (elements element) := by
  have halong (clock : Bytes) : ∀ first, Onward (elementsAlong element clock first) := by
    induction clock with
    | nil => exact fun _ => fail_onward
    | cons b clock ih =>
      intro first
      refine (nextElement_onward first).bind fun more => ?_
      cases more with
      | true => exact h.bind fun a => (ih false).bind fun as => pure_onward (a :: as)
      | false => exact pure_onward []
  exact fun c => halong c.rest true c

theorem members_onward {member : String → σ → Reader σ} (h : ∀ name s, Onward (member name s))
    (s : σ) : Onward (members member s) := by
  have halong (clock : Bytes) : ∀ first s, Onward (membersAlong member clock first s) := by
    induction clock with
    | nil => exact fun _ _ => fail_onward
    | cons b clock ih =>
      intro first s
      refine (nextMember_onward first).bind fun more => ?_
      cases more with
      | true => exact stringBody_onward.bind fun name => (h name s).bind (ih false)
      | false => exact pure_onward s
  exact fun c => halong c.rest true s c

theorem scalar?_onward {ch : Char} {r : Reader Json} (h : scalar? ch = some r) : Onward r := by
  have hword (rest : String) (json : Json) : Onward (do advance; word rest; return json) :=
    advance_onward.bind fun _ => (word_onward rest).bind fun _ => pure_onward json
  unfold scalar? at h
  split at h
  · cases h
    exact hword "ull" .null
  · cases h
    exact hword "rue" (.bool true)
  · cases h
    exact hword "alse" (.bool false)
  · cases h
    exact advance_onward.bind fun _ => (numeral_onward true).bind fun _ => pure_onward _
  · cases h
    exact advance_onward.bind fun _ => stringBody_onward.bind fun _ => pure_onward _
  · split at h
    · cases h
      exact (numeral_onward false).bind fun _ => pure_onward _
    · cases h

theorem scalarOr_onward {nested : Char → Reader Json} (h : ∀ ch, Onward (nested ch)) :
    Onward (scalarOr nested) := by
  apply peek_onward.bind_option fail_onward
  intro ch
  simp only
  cases hscalar : scalar? ch with
  | some r => exact scalar?_onward hscalar
  | none => exact h ch

theorem Onward.arrayOf {item : Reader Json} (h : Onward item) : Onward (arrayOf item) := by
  have hbody : Onward (do return Json.array (← Reader.elements item)) :=
    h.elements.bind fun _ => pure_onward _
  exact advance_onward.bind fun _ => hbody.closedBy closeArray_onward

theorem Onward.objectOf {item : Reader Json} (h : Onward item) : Onward (objectOf item) := by
  have hmember (name : String) (taken : List (String × Json)) :
      Onward (do colon; let json ← item; return (name, json) :: taken) :=
    colon_onward.bind fun _ => h.bind fun json => pure_onward ((name, json) :: taken)
  refine advance_onward.bind fun _ => ?_
  exact ((members_onward hmember []).bind fun _ => pure_onward _).closedBy closeObject_onward

theorem value_onward (depth : Nat) : Onward (value depth) := by
  induction depth with
  | zero => exact scalarOr_onward fun _ => fail_onward
  | succ depth ih =>
    refine scalarOr_onward fun ch => ?_
    split
    · exact ih.arrayOf
    · exact ih.objectOf
    · exact fail_onward

/-! ## Passing over values -/

theorem skipName_onward : Onward skipName := by
  apply peek_onward.bind
  intro o
  split
  · exact advance_onward.bind fun _ => (scan_onward passString_suffix).bind fun _ => colon_onward
  · exact fail_onward

theorem Container.next_onward (inner : Container) : Onward inner.next := by
  cases inner with
  | array => exact pure_onward ()
  | object => exact skipName_onward

theorem skipScalar_onward (ch : Char) : Onward (skipScalar ch) := by
  unfold skipScalar
  split
  · exact advance_onward.bind fun _ => word_onward _
  · exact advance_onward.bind fun _ => word_onward _
  · exact advance_onward.bind fun _ => word_onward _
  · exact advance_onward.bind fun _ => scan_onward passNumeral_suffix
  · exact advance_onward.bind fun _ => scan_onward passString_suffix
  · split
    · exact scan_onward passNumeral_suffix
    · exact fail_onward

theorem leave_onward (containers : List Container) : Onward (leave containers) := by
  induction containers with
  | nil => exact pure_onward none
  | cons inner outer ih =>
    apply peek_onward.bind_option fail_onward
    intro ch
    simp only
    split
    · exact advance_onward.bind fun _ => inner.next_onward.bind fun _ => pure_onward _
    split
    · exact advance_onward.bind fun _ => ih
    · exact fail_onward

theorem enter_onward (inner : Container) (outer : List Container) : Onward (enter inner outer) := by
  refine advance_onward.bind fun _ => peek_onward.bind_option fail_onward fun ch => ?_
  simp only
  split
  · exact advance_onward.bind fun _ => leave_onward outer
  · exact inner.next_onward.bind fun _ => pure_onward _

theorem skip_onward : Onward skip := by
  have halong (clock : Bytes) : ∀ containers, Onward (skipAlong clock containers) := by
    induction clock with
    | nil => exact fun _ => fail_onward
    | cons b clock ih =>
      intro containers
      apply peek_onward.bind
      intro o
      simp only
      split
      · exact fail_onward.bind_option (pure_onward ()) ih
      · exact (enter_onward .array containers).bind_option (pure_onward ()) ih
      · exact (enter_onward .object containers).bind_option (pure_onward ()) ih
      · refine (skipScalar_onward _).bind fun _ => ?_
        exact (leave_onward containers).bind_option (pure_onward ()) ih
  exact fun c => halong c.rest [] c

end Reader
end CredentialCeremony
