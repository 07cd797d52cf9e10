import CredentialCeremony.Json.Printer
import CredentialCeremony.Proofs.Number.Digits
import CredentialCeremony.Proofs.Reading.Value
import Mathlib.Algebra.Group.Int.Defs
import Mathlib.Algebra.Group.Nat.Defs

set_option autoImplicit false

/-!
# The text of a value spells the value

`Json.text` writes a value so that the value stands at the front of its text and nothing behind it.
This holds for every string. It holds for the numbers that are whole and fit 64 bits; a double is
read with the roundings of `Numeral.double?` and may come back another one.

Main statement: the text of a value whose numbers are whole spells the value (`Json.Whole.fills`).
-/

namespace CredentialCeremony

open Grammar

/-! ## Characters as bytes -/

theorem utf8_ofList (cs : List Char) :
    utf8 (String.ofList cs) = cs.flatMap String.utf8EncodeChar := by
  simp [utf8, List.utf8Encode]

theorem utf8_eq (s : String) : utf8 s = s.toList.flatMap String.utf8EncodeChar := by
  rw [← utf8_ofList, String.ofList_toList]

/-- A character below U+0080 is a byte. -/
theorem utf8EncodeChar_of_lt {c : Char} (h : c.toNat < 128) :
    String.utf8EncodeChar c = [UInt8.ofNat c.toNat] := by
  have hle : c.val.toNat ≤ 0x7f := Nat.le_of_lt_succ h
  rw [String.utf8EncodeChar]
  exact if_pos hle

/-- The bytes of any other character are not below 0x80. -/
theorem le_of_mem_utf8EncodeChar {c : Char} (h : 128 ≤ c.toNat) {b : UInt8}
    (hb : b ∈ String.utf8EncodeChar c) : 128 ≤ b.toNat := by
  have hle : ¬ c.val.toNat ≤ 0x7f := Nat.not_le.2 h
  unfold String.utf8EncodeChar at hb
  simp only [hle, if_false] at hb
  split at hb
  · simp only [List.mem_cons, List.not_mem_nil, or_false] at hb
    rcases hb with rfl | rfl <;> rw [UInt8.toNat_ofNat'] <;> omega
  · split at hb
    · simp only [List.mem_cons, List.not_mem_nil, or_false] at hb
      rcases hb with rfl | rfl | rfl <;> rw [UInt8.toNat_ofNat'] <;> omega
    · simp only [List.mem_cons, List.not_mem_nil, or_false] at hb
      rcases hb with rfl | rfl | rfl | rfl <;> rw [UInt8.toNat_ofNat'] <;> omega

theorem toNat_ofUInt8 (b : UInt8) : (Char.ofUInt8 b).toNat = b.toNat :=
  UInt8.toNat_toUInt32 b

/-- The byte of a character below U+0080 stands for the character. -/
theorem ofUInt8_ofNat {c : Char} (h : c.toNat < 128) :
    Char.ofUInt8 (UInt8.ofNat c.toNat) = c := by
  rw [← Char.toNat_inj, toNat_ofUInt8, UInt8.toNat_ofNat']
  omega

/-! ## Strings -/

/-- A byte that stands for itself inside a string. -/
def IsPlain (b : UInt8) : Prop :=
  Char.ofUInt8 b ≠ '"' ∧ Char.ofUInt8 b ≠ '\\' ∧ ¬ b < 0x20

theorem isPlain_iff {b : UInt8} : IsPlain b ↔ b.toNat ≠ 34 ∧ b.toNat ≠ 92 ∧ 32 ≤ b.toNat := by
  have hne (c : Char) : Char.ofUInt8 b ≠ c ↔ b.toNat ≠ c.toNat := by
    rw [ne_eq, ← Char.toNat_inj, toNat_ofUInt8]
  have hlt : ¬ b < 0x20 ↔ 32 ≤ b.toNat := by
    rw [UInt8.not_lt, UInt8.le_iff_toNat_le]
    rfl
  rw [IsPlain]
  rw [hne, hne, hlt]
  exact Iff.rfl

/-- Bytes that stand for themselves may be put in front of a string. -/
theorem chars_append {bytes text content rest : Bytes} (hplain : ∀ b ∈ bytes, IsPlain b)
    (h : Chars text content rest) : Chars (bytes ++ text) (bytes ++ content) rest := by
  induction bytes with
  | nil => exact h
  | cons b bytes ih =>
    rw [List.forall_mem_cons] at hplain
    obtain ⟨⟨hq, hs, hc⟩, hplain⟩ := hplain
    exact .plain hq hs hc (ih hplain)

/-- A character that needs no escape consists of such bytes. -/
theorem isPlain_of_mem_utf8EncodeChar {c : Char} (hq : c ≠ '"') (hs : c ≠ '\\')
    (hc : 32 ≤ c.toNat) {b : UInt8} (hb : b ∈ String.utf8EncodeChar c) : IsPlain b := by
  rw [isPlain_iff]
  by_cases hlow : c.toNat < 128
  · rw [utf8EncodeChar_of_lt hlow, List.mem_singleton] at hb
    subst hb
    have hq' : c.toNat ≠ 34 := fun h => hq (Char.toNat_inj.1 h)
    have hs' : c.toNat ≠ 92 := fun h => hs (Char.toNat_inj.1 h)
    rw [UInt8.toNat_ofNat']
    omega
  · have hle := le_of_mem_utf8EncodeChar (Nat.not_lt.1 hlow) hb
    omega

/-- A hexadecimal digit is the byte that is read back as its value. -/
theorem hexValue?_ofUInt8_lowerHex : ∀ n < 16,
    Text.hexValue? (Char.ofUInt8 (UInt8.ofNat (Text.lowerHex n).toNat)) = some n := by
  decide

theorem utf8EncodeChar_lowerHex : ∀ n < 16,
    String.utf8EncodeChar (Text.lowerHex n) = [UInt8.ofNat (Text.lowerHex n).toNat] := by
  decide

/-- A numbered escape below U+0020 stands for its number. -/
theorem hexUnit?_lowerHex {n : Nat} (h : n < 0x20) :
    hexUnit? 48 48 (UInt8.ofNat (Text.lowerHex (n / 16)).toNat)
      (UInt8.ofNat (Text.lowerHex (n % 16)).toNat) = some n := by
  have hzero : Text.hexValue? (Char.ofUInt8 48) = some 0 := rfl
  have hhigh := hexValue?_ofUInt8_lowerHex (n / 16) (by omega)
  have hlow := hexValue?_ofUInt8_lowerHex (n % 16) (by omega)
  simp only [hexUnit?, List.mapM_cons, List.mapM_nil, hzero, hhigh, hlow]
  simp only [pure, bind, Option.bind, List.foldl_cons, List.foldl_nil]
  congr 1
  omega

namespace Json

/-- A control is escaped by a letter or by its number. -/
theorem chars_control {c : Char} {text content rest : Bytes} (hc : c.toNat < 0x20)
    (h : Chars text content rest) :
    Chars ((escaped c).flatMap String.utf8EncodeChar ++ text)
      (String.utf8EncodeChar c ++ content) rest := by
  have hq : c ≠ '"' := by
    rintro rfl
    revert hc
    decide
  have hs : c ≠ '\\' := by
    rintro rfl
    revert hc
    decide
  have hchar (n : Nat) (hn : c.toNat = n) : c = Char.ofNat n := by
    rw [← hn, Char.ofNat_toNat]
  rw [escaped]
  simp only [hq, hs, hc, if_true, if_false]
  split
  · rename_i hn
    rw [hchar 8 hn]
    exact .letter rfl rfl h
  · rename_i hn
    rw [hchar 9 hn]
    exact .letter rfl rfl h
  · rename_i hn
    rw [hchar 10 hn]
    exact .letter rfl rfl h
  · rename_i hn
    rw [hchar 12 hn]
    exact .letter rfl rfl h
  · rename_i hn
    rw [hchar 13 hn]
    exact .letter rfl rfl h
  · have hhigh := utf8EncodeChar_lowerHex (c.toNat / 16) (by omega)
    have hlow := utf8EncodeChar_lowerHex (c.toNat % 16) (by omega)
    have hunit := hexUnit?_lowerHex hc
    have hscalar : ¬ (0xD800 ≤ c.toNat ∧ c.toNat ≤ 0xDFFF) := by omega
    have hnumbered := Chars.unit (b := 92) (e := 117) rfl rfl hunit hscalar h
    rw [utf8Char, Char.ofNat_toNat] at hnumbered
    simp only [List.flatMap_cons, hhigh, hlow]
    exact hnumbered

/-- A character as it stands inside a string is read as the character. -/
theorem chars_escaped (c : Char) {text content rest : Bytes} (h : Chars text content rest) :
    Chars ((escaped c).flatMap String.utf8EncodeChar ++ text)
      (String.utf8EncodeChar c ++ content) rest := by
  by_cases hc : c.toNat < 0x20
  · exact chars_control hc h
  by_cases hq : c = '"'
  · subst hq
    exact .letter rfl rfl h
  by_cases hs : c = '\\'
  · subst hs
    exact .letter rfl rfl h
  -- any other character stands for itself
  · have hplain : escaped c = [c] := by simp [escaped, hq, hs, hc]
    rw [hplain, List.flatMap_singleton]
    exact chars_append (fun b hb => isPlain_of_mem_utf8EncodeChar hq hs (Nat.not_lt.1 hc) hb) h

/-- The inside of the text of a string is read as the string. -/
theorem chars_flatMap_escaped (cs : List Char) (rest : Bytes) :
    Chars ((cs.flatMap escaped).flatMap String.utf8EncodeChar ++ 34 :: rest)
      (cs.flatMap String.utf8EncodeChar) rest := by
  induction cs with
  | nil => exact .close rfl
  | cons c cs ih =>
    rw [List.flatMap_cons, List.flatMap_append, List.append_assoc]
    exact chars_escaped c ih

theorem utf8_stringText (s : String) : utf8 (stringText s) =
    34 :: ((s.toList.flatMap escaped).flatMap String.utf8EncodeChar ++ [34]) := by
  have hinside := utf8_ofList (s.toList.flatMap escaped)
  rw [stringText, utf8_append, utf8_append, hinside]
  rfl

end Json

/-! ## Whole numbers -/

/-- Nothing at the front of the text could belong to a number in front of it. -/
def Delimited (text : Bytes) : Prop :=
  ¬ Starts (fun c => c.isDigit || c == '.' || c == 'e' || c == 'E') text

theorem delimited_nil : Delimited [] := not_starts_nil

theorem delimited_cons {b : UInt8} {text : Bytes}
    (hb : Char.ofUInt8 b ∈ [',', ']', '\x7d']) : Delimited (b :: text) := by
  simp only [List.mem_cons, List.not_mem_nil, or_false] at hb
  rcases hb with hb | hb | hb <;> simp [Delimited, hb]

theorem toNat_lt_of_isDigit {c : Char} (h : c.isDigit = true) : c.toNat < 128 := by
  have hle := (Char.isDigit_iff_toNat.1 h).2
  have hnine : '9'.toNat = 57 := rfl
  omega

/-- Digits are bytes. -/
theorem flatMap_utf8EncodeChar_of_digits {cs : List Char} (h : ∀ c ∈ cs, c.isDigit = true) :
    cs.flatMap String.utf8EncodeChar = cs.map fun c => UInt8.ofNat c.toNat := by
  induction cs with
  | nil => rfl
  | cons c cs ih =>
    rw [List.forall_mem_cons] at h
    rw [List.flatMap_cons, utf8EncodeChar_of_lt (toNat_lt_of_isDigit h.1), ih h.2]
    rfl

/-- Digits that are written are taken with their values. -/
theorem takeDigits_of_digits {cs : List Char} {rest : Bytes} (hall : ∀ c ∈ cs, c.isDigit = true)
    (hrest : ¬ Starts Char.isDigit rest) :
    takeDigits ((cs.map fun c => UInt8.ofNat c.toNat) ++ rest) =
      (cs.map fun c => c.toNat - 48, rest) := by
  have hchar {c : Char} (hc : c ∈ cs) : Char.ofUInt8 (UInt8.ofNat c.toNat) = c :=
    ofUInt8_ofNat (toNat_lt_of_isDigit (hall c hc))
  rw [takeDigits_append _ hrest]
  · rw [List.map_map]
    congr 1
    apply List.map_congr_left
    intro c hc
    rw [Function.comp_apply, hchar hc]
  · intro b hb
    obtain ⟨c, hc, rfl⟩ := List.mem_map.1 hb
    rw [hchar hc]
    exact hall c hc

/-- Where nothing can belong to a number, none of its parts goes on. -/
theorem Delimited.stops {text : Bytes} (h : Delimited text) :
    ¬ Starts Char.isDigit text ∧ exponentMark? text = none ∧
      ∀ b rest, text = b :: rest → Char.ofUInt8 b ≠ '.' := by
  cases text with
  | nil => exact ⟨not_starts_nil, rfl, by simp⟩
  | cons b rest =>
    simp only [Delimited, starts_cons_iff, Bool.or_eq_true, beq_iff_eq, not_or] at h
    obtain ⟨⟨⟨hdigit, hpoint⟩, he⟩, hE⟩ := h
    refine ⟨by simpa using hdigit, by simp [exponentMark?, he, hE], ?_⟩
    rintro _ _ ⟨rfl, rfl⟩
    exact hpoint

/-- The values of the digits of a number make up the number. -/
theorem foldl_of_toDigits_eq_cons {n : Nat} {d : Char} {ds : List Char}
    (h : Nat.toDigits 10 n = d :: ds) :
    (ds.map fun c => c.toNat - 48).foldl (fun n d => 10 * n + d) (d.toNat - 48) = n := by
  have hvalue : Nat.ofDigitChars 10 (Nat.toDigits 10 n) 0 = n := Nat.ofDigitChars_ten_toDigits
  rw [h, Nat.ofDigitChars_cons, Nat.ofDigitChars_eq_foldl] at hvalue
  rw [List.foldl_map]
  simpa using hvalue

/-- The digits of a number are scanned to their end. The number is whole if its significand holds all
of them, and else the double that the significand and the digits left out stand for. -/
theorem scanNumeral_of_toDigits (negative : Bool) {n significand leftOut : Nat} {d : Char}
    {ds : List Char} {rest : Bytes} (hdigits : Nat.toDigits 10 n = d :: ds)
    (habsorb : Numeral.absorb (d.toNat - 48) (ds.map fun c => c.toNat - 48) = (significand, leftOut))
    (hrest : Delimited rest) :
    scanNumeral negative (utf8 n.repr ++ rest) =
      if leftOut = 0 then .ok (wholeNumber negative significand, rest)
      else finishDouble negative significand leftOut rest := by
  have hall : ∀ c ∈ Nat.toDigits 10 n, c.isDigit = true := fun c hc =>
    Nat.isDigit_of_mem_toDigits (by decide) (by decide) hc
  rw [utf8_eq, Nat.toList_repr, flatMap_utf8EncodeChar_of_digits hall, hdigits]
  rw [hdigits, List.forall_mem_cons] at hall
  have hd := ofUInt8_ofNat (toNat_lt_of_isDigit hall.1)
  obtain ⟨hstop, hmark, hpoint⟩ := hrest.stops
  have htake := takeDigits_of_digits hall.2 hstop
  have hlead : ¬ (d = '0' ∧ ¬ (ds.map fun c => c.toNat - 48).isEmpty = true) := by
    rintro ⟨rfl, hsome⟩
    rw [eq_nil_of_toDigits_eq_zero_cons hdigits] at hsome
    exact hsome rfl
  simp only [List.map_cons, List.cons_append, scanNumeral, hd, hall.1, not_true_eq_false, if_false,
    htake, hlead, habsorb, hmark]
  cases rest with
  | nil => rfl
  | cons b rest => simp only [hpoint b rest rfl, if_false]

/-- The digits of a number are read as the number, up to where nothing can belong to it. -/
theorem scanNumeral_repr (negative : Bool) {n : Nat} {rest : Bytes} (hn : n < 2 ^ 64)
    (hrest : Delimited rest) :
    scanNumeral negative (utf8 n.repr ++ rest) = .ok (wholeNumber negative n, rest) := by
  cases hdigits : Nat.toDigits 10 n with
  | nil => exact absurd hdigits Nat.toDigits_ne_nil
  | cons d ds =>
    have hfold := foldl_of_toDigits_eq_cons hdigits
    -- a number below the limit is absorbed whole, so no digit is dropped
    have habsorb := Numeral.absorb_eq_of_lt (hfold.symm ▸ hn)
    rw [hfold] at habsorb
    rw [scanNumeral_of_toDigits negative hdigits habsorb hrest, if_pos rfl]

namespace Json

mutual

/-- Every number is whole and fits 64 bits. -/
def Whole : Json → Prop
  | .number n => ∃ k : Int, n = .integer k ∧ -2 ^ 63 ≤ k ∧ k < 2 ^ 64
  | .array items => ItemsWhole items
  | .object members => MembersWhole members
  | _ => True

/-- Every number among the values is whole and fits 64 bits. -/
def ItemsWhole : List Json → Prop
  | [] => True
  | json :: items => Whole json ∧ ItemsWhole items

/-- Every number among the values of the members is whole and fits 64 bits. -/
def MembersWhole : List (String × Json) → Prop
  | [] => True
  | (_, json) :: members => Whole json ∧ MembersWhole members

end

theorem next_cons {b : UInt8} {rest : Bytes} (hb : isSpace b = false) :
    Next (Char.ofUInt8 b) (b :: rest) rest :=
  ⟨b, unspaced_cons_of_not_space hb, rfl⟩

theorem isSpace_of_isDigit {b : UInt8} (h : (Char.ofUInt8 b).isDigit = true) :
    isSpace b = false := by
  rw [isSpace]
  split
  · rename_i hb
    simp [hb] at h
  · rename_i hb
    simp [hb] at h
  · rename_i hb
    simp [hb] at h
  · rename_i hb
    simp [hb] at h
  · rfl

/-- The digits of a number start with a digit. -/
theorem exists_utf8_repr_eq_cons (n : Nat) :
    ∃ b text, utf8 n.repr = b :: text ∧ (Char.ofUInt8 b).isDigit = true := by
  have hall : ∀ c ∈ Nat.toDigits 10 n, c.isDigit = true := fun c hc =>
    Nat.isDigit_of_mem_toDigits (by decide) (by decide) hc
  rw [utf8_eq, Nat.toList_repr, flatMap_utf8EncodeChar_of_digits hall]
  cases hdigits : Nat.toDigits 10 n with
  | nil => exact absurd hdigits Nat.toDigits_ne_nil
  | cons d ds =>
    have hd : d.isDigit = true := hall d (hdigits ▸ List.mem_cons_self)
    refine ⟨_, _, rfl, ?_⟩
    rw [ofUInt8_ofNat (toNat_lt_of_isDigit hd)]
    exact hd

/-- The digits of a number start with no white space. -/
theorem unspaced_utf8_repr (n : Nat) (rest : Bytes) :
    unspaced (utf8 n.repr ++ rest) = utf8 n.repr ++ rest := by
  obtain ⟨b, text, hdigits, hb⟩ := exists_utf8_repr_eq_cons n
  rw [hdigits, List.cons_append]
  exact unspaced_cons_of_not_space (isSpace_of_isDigit hb)

/-- The text of a whole number spells it. -/
theorem spelled_integer {k : Int} {rest : Bytes} (hlow : -2 ^ 63 ≤ k) (hhigh : k < 2 ^ 64)
    (hrest : Delimited rest) :
    (Json.number (.integer k)).Spelled (utf8 (numberText (.integer k)) ++ rest) rest := by
  by_cases hsign : 0 ≤ k
  · have htext : numberText (.integer k) = k.toNat.repr := by
      rw [numberText, Int.toString_eq_repr, Int.repr_eq_if, if_pos hsign]
    left
    rw [htext, unspaced_utf8_repr, scanNumeral_repr false (by omega) hrest]
    simp only [wholeNumber, Bool.false_eq_true, if_false, Int.toNat_of_nonneg hsign]
  -- the sign is a character of its own, and the magnitude is read back behind it
  · have htext : numberText (.integer k) = "-" ++ (-k).toNat.repr := by
      rw [numberText, Int.toString_eq_repr, Int.repr_eq_if, if_neg hsign]
    right
    refine ⟨utf8 (-k).toNat.repr ++ rest, ?_, ?_⟩
    · rw [htext, utf8_append]
      exact next_cons rfl
    · have hfits : 0 < (-k).toNat ∧ (-k).toNat ≤ 0x8000000000000000 := by omega
      have hback : -((-k).toNat : Int) = k := by omega
      rw [scanNumeral_repr true (by omega) hrest]
      simp only [wholeNumber, if_true, hfits, and_self, hback]

/-- The text of a string spells it. -/
theorem spelled_stringText (s : String) (rest : Bytes) :
    (Json.string s).Spelled (utf8 (stringText s) ++ rest) rest := by
  refine ⟨(s.toList.flatMap escaped).flatMap String.utf8EncodeChar ++ 34 :: rest, ?_, ?_⟩
  · rw [utf8_stringText, List.cons_append, List.append_assoc]
    exact next_cons rfl
  · rw [utf8_eq]
    exact chars_flatMap_escaped s.toList rest

/-- The elements behind the first one, each behind its comma. -/
def itemsTail : List Json → String
  | [] => ""
  | json :: items => "," ++ json.text ++ itemsTail items

/-- The members behind the first one, each behind its comma. -/
def membersTail : List (String × Json) → String
  | [] => ""
  | (name, json) :: members => "," ++ stringText name ++ ":" ++ json.text ++ membersTail members

theorem itemsText_cons (json : Json) (items : List Json) :
    itemsText (json :: items) = json.text ++ itemsTail items := by
  induction items generalizing json with
  | nil => simp [itemsText, itemsTail]
  | cons next items ih => simp only [itemsText, ih, itemsTail, String.append_assoc]

theorem membersText_cons (name : String) (json : Json) (members : List (String × Json)) :
    membersText ((name, json) :: members) =
      stringText name ++ ":" ++ json.text ++ membersTail members := by
  induction members generalizing name json with
  | nil => simp [membersText, membersTail]
  | cons next members ih =>
    simp only [membersText, ih, membersTail, String.append_assoc]

/-- Nothing behind an element belongs to it. -/
theorem delimited_itemsTail (items : List Json) (rest : Bytes) :
    Delimited (utf8 (itemsTail items) ++ 93 :: rest) := by
  cases items with
  | nil => exact delimited_cons (by decide)
  | cons json items =>
    rw [itemsTail, utf8_append, utf8_append]
    exact delimited_cons (by decide)

/-- Nothing behind a member belongs to it. -/
theorem delimited_membersTail (members : List (String × Json)) (rest : Bytes) :
    Delimited (utf8 (membersTail members) ++ 125 :: rest) := by
  cases members with
  | nil => exact delimited_cons (by decide)
  | cons m members =>
    rw [membersTail, utf8_append, utf8_append, utf8_append, utf8_append]
    exact delimited_cons (by decide)

mutual

/-- The text of a value spells it, if nothing behind the text could belong to a number. -/
theorem spelled_text : (json : Json) → json.Whole → {rest : Bytes} → Delimited rest →
    json.Spelled (utf8 json.text ++ rest) rest
  | .null, _, _, _ => ⟨[110, 117, 108, 108], rfl, rfl⟩
  | .bool true, _, _, _ => ⟨[116, 114, 117, 101], rfl, rfl⟩
  | .bool false, _, _, _ => ⟨[102, 97, 108, 115, 101], rfl, rfl⟩
  | .number _, ⟨_, rfl, hlow, hhigh⟩, _, hrest => spelled_integer hlow hhigh hrest
  | .string s, _, rest, _ => spelled_stringText s rest
  | .array [], _, _, _ => ⟨_, next_cons rfl, next_cons rfl⟩
  | .array (json :: items), ⟨hjson, hitems⟩, rest, _ => by
    have hitem := spelled_text json hjson (delimited_itemsTail items rest)
    have htail := itemsSpelled_tail items hitems rest
    refine ⟨utf8 json.text ++ (utf8 (itemsTail items) ++ 93 :: rest), ?_, _, _, rfl, hitem, htail⟩
    have htext : utf8 (Json.array (json :: items)).text ++ rest =
        91 :: (utf8 json.text ++ (utf8 (itemsTail items) ++ 93 :: rest)) := by
      rw [text, itemsText_cons]
      simp only [utf8_append, List.append_assoc]
      rfl
    rw [htext]
    exact next_cons rfl
  | .object [], _, _, _ => ⟨_, next_cons rfl, next_cons rfl⟩
  | .object ((name, json) :: members), ⟨hjson, hmembers⟩, rest, _ => by
    have hitem := spelled_text json hjson (delimited_membersTail members rest)
    have htail := membersSpelled_tail members hmembers rest
    obtain ⟨quoted, hmark, hname⟩ := spelled_stringText name
      (58 :: (utf8 json.text ++ (utf8 (membersTail members) ++ 125 :: rest)))
    refine ⟨utf8 (stringText name) ++
      (58 :: (utf8 json.text ++ (utf8 (membersTail members) ++ 125 :: rest))), ?_,
      _, _, _, _, _, rfl, hmark, hname, next_cons rfl, hitem, htail⟩
    have htext : utf8 (Json.object ((name, json) :: members)).text ++ rest =
        123 :: (utf8 (stringText name) ++
          (58 :: (utf8 json.text ++ (utf8 (membersTail members) ++ 125 :: rest)))) := by
      rw [text, membersText_cons]
      simp only [utf8_append, List.append_assoc]
      rfl
    rw [htext]
    exact next_cons rfl

theorem itemsSpelled_tail : (items : List Json) → ItemsWhole items → (rest : Bytes) →
    ItemsSpelled items false (utf8 (itemsTail items) ++ 93 :: rest) rest
  | [], _, _ => next_cons rfl
  | json :: items, ⟨hjson, hitems⟩, rest => by
    have hitem := spelled_text json hjson (delimited_itemsTail items rest)
    refine ⟨utf8 json.text ++ (utf8 (itemsTail items) ++ 93 :: rest), _, ?_, hitem,
      itemsSpelled_tail items hitems rest⟩
    rw [itemsTail, utf8_append, utf8_append, List.append_assoc, List.append_assoc]
    exact next_cons rfl

theorem membersSpelled_tail : (members : List (String × Json)) → MembersWhole members →
    (rest : Bytes) → MembersSpelled members false (utf8 (membersTail members) ++ 125 :: rest) rest
  | [], _, _ => next_cons rfl
  | (name, json) :: members, ⟨hjson, hmembers⟩, rest => by
    have hitem := spelled_text json hjson (delimited_membersTail members rest)
    obtain ⟨quoted, hmark, hname⟩ := spelled_stringText name
      (58 :: (utf8 json.text ++ (utf8 (membersTail members) ++ 125 :: rest)))
    refine ⟨_, _, _, _, _, ?_, hmark, hname, next_cons rfl, hitem,
      membersSpelled_tail members hmembers rest⟩
    rw [membersTail]
    simp only [utf8_append, List.append_assoc]
    exact next_cons rfl

end

/-- The text of a value whose numbers are whole spells it, and nothing stands behind. -/
theorem Whole.fills {json : Json} (h : json.Whole) : json.Fills (utf8 json.text) := by
  have hspelled := spelled_text json h delimited_nil
  rw [List.append_nil] at hspelled
  exact ⟨[], hspelled, rfl⟩

end Json
end CredentialCeremony
