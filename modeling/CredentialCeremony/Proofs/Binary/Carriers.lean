import CredentialCeremony.Proofs.Binary.Bits
import CredentialCeremony.Proofs.Binary.Items
import CredentialCeremony.Proofs.Schema.Whole

set_option autoImplicit false

/-!
# One value in every carrier

Bytes travel as text in base 64 of either alphabet, as arrays of integers and as binary strings,
whole or in pieces. Of a text that both alphabets read, they read the same bytes, though one of them
looks at the bits behind the last byte and the other does not (`Base64.decoders_agree`).

Main statement: every carrier of bytes is read back as these bytes, and what carries none is refused
(`carriers_agree`).
-/

namespace CredentialCeremony

/-! ## Two alphabets -/

namespace Base64

/-- The characters of bytes in an alphabet, with padding of any length. -/
def Alphabet.spell (a : Alphabet) (bytes : Bytes) (padding : Nat) : String :=
  String.ofList ((sextetsOf bytes).map a.symbol ++ List.replicate padding '=')

/-- A character that stands for a group in both alphabets stands for the same one. -/
theorem value?_agree {c : Char} {m n : Nat} (hurl : Alphabet.url.value? c = some m)
    (hstandard : Alphabet.standard.value? c = some n) : m = n := by
  unfold Alphabet.value? at hurl hstandard
  by_cases hupper : c.isUpper = true
  · rw [if_pos hupper] at hurl hstandard
    exact Option.some.inj (hurl.symm.trans hstandard)
  by_cases hlower : c.isLower = true
  · rw [if_neg hupper, if_pos hlower] at hurl hstandard
    exact Option.some.inj (hurl.symm.trans hstandard)
  by_cases hdigit : c.isDigit = true
  · rw [if_neg hupper, if_neg hlower, if_pos hdigit] at hurl hstandard
    exact Option.some.inj (hurl.symm.trans hstandard)
  -- the last two characters of one alphabet are not in the other
  · rw [if_neg hupper, if_neg hlower, if_neg hdigit] at hurl hstandard
    by_cases hdash : c = Alphabet.url.lastTwo.1
    · subst hdash
      cases hstandard
    · rw [if_neg hdash] at hurl
      by_cases hline : c = Alphabet.url.lastTwo.2
      · subst hline
        cases hstandard
      · rw [if_neg hline] at hurl
        cases hurl

theorem groups_agree {text : List Char} {ms ns : List Nat}
    (hurl : text.mapM Alphabet.url.value? = some ms)
    (hstandard : text.mapM Alphabet.standard.value? = some ns) : ms = ns := by
  rw [mapM_eq_some_iff] at hurl hstandard
  induction hurl generalizing ns with
  | nil =>
    cases hstandard
    rfl
  | cons hm _ ih =>
    cases hstandard with
    | cons hn hothers => rw [value?_agree hm hn, ih hothers]

/-- What is read with a look at the bits behind the last byte is read without one as well. -/
theorem bytesOf_of_strict {groups : List Nat} {bytes : Bytes}
    (h : bytesOf true groups = some bytes) : bytesOf false groups = some bytes := by
  fun_induction bytesOf true groups generalizing bytes with
  | case1 => exact h
  | case2 => cases h
  | case3 => cases h
  | case4 => exact h
  | case5 => cases h
  | case6 => exact h
  | case7 p q r s rest ih =>
    obtain ⟨others, hothers, rfl⟩ := Option.map_eq_some_iff.1 h
    rw [bytesOf, ih hothers]
    rfl

/-- Of a text that is read in both alphabets the same bytes are read. -/
theorem decoders_agree {text : String} {bytes others : Bytes}
    (hurl : decodeUrl? text = some bytes) (hstandard : decodeStandard? text = some others) :
    bytes = others := by
  obtain ⟨groups, hgroups, hbytes⟩ := Option.bind_eq_some_iff.1 hurl
  obtain ⟨_, hsame, hothers⟩ := Option.bind_eq_some_iff.1 hstandard
  obtain rfl := groups_agree hgroups hsame
  exact Option.some.inj (hbytes.symm.trans (bytesOf_of_strict hothers))

theorem decode?_spell (a : Alphabet) (strict : Bool) (bytes : Bytes) (padding : Nat) :
    decode? a strict (a.spell bytes padding) = some bytes := by
  rw [decode?, Alphabet.spell, String.toList_ofList, unpadded_append_padding]
  have h := decode?_symbols a strict bytes
  rwa [decode?, String.toList_ofList] at h

/-- Every character of a text that is read is padding or belongs to the alphabet. -/
theorem value?_ne_none_of_decode? {a : Alphabet} {strict : Bool} {text : String} {bytes : Bytes}
    (h : decode? a strict text = some bytes) {c : Char} (hc : c ∈ text.toList) (hpadding : c ≠ '=') :
    a.value? c ≠ none := by
  obtain ⟨groups, hgroups, -⟩ := Option.bind_eq_some_iff.1 h
  obtain ⟨k, hk⟩ := exists_eq_unpadded_append text.toList
  rw [hk, List.mem_append] at hc
  rcases hc with hc | hc
  · have hall := isSome_mapM_iff.1 (Option.isSome_iff_exists.2 ⟨groups, hgroups⟩)
    exact Option.isSome_iff_ne_none.1 (hall c hc)
  · exact absurd (List.eq_of_mem_replicate hc) hpadding

end Base64

open Base64

/-- Which alphabet is tried first makes no difference. -/
theorem Bytes.ofText?_eq_orElse (text : String) :
    Bytes.ofText? text = (decodeStandard? text <|> decodeUrl? text) := by
  rw [Bytes.ofText?]
  cases hurl : decodeUrl? text with
  | none => cases decodeStandard? text <;> rfl
  | some bytes =>
    cases hstandard : decodeStandard? text with
    | none => rfl
    | some others => exact congrArg some (decoders_agree hurl hstandard)

theorem Bytes.ofText?_eq_some_iff {text : String} {bytes : Bytes} : Bytes.ofText? text = some bytes ↔
    decodeUrl? text = some bytes ∨ decodeStandard? text = some bytes := by
  constructor
  · intro h
    rw [Bytes.ofText?] at h
    cases hurl : decodeUrl? text with
    | none =>
      rw [hurl] at h
      exact .inr h
    | some others =>
      rw [hurl] at h
      exact .inl h
  · rintro (h | h)
    · rw [Bytes.ofText?, h]
      rfl
    · rw [Bytes.ofText?_eq_orElse, h]
      rfl

/-- Bytes are read back from their characters in either alphabet, with any padding. -/
theorem Bytes.ofText?_spell (a : Alphabet) (bytes : Bytes) (padding : Nat) :
    Bytes.ofText? (a.spell bytes padding) = some bytes := by
  rw [Bytes.ofText?_eq_some_iff]
  cases a with
  | url => exact .inl (decode?_spell .url false bytes padding)
  | standard => exact .inr (decode?_spell .standard true bytes padding)

/-- A text with characters that only one alphabet has, and with others that only the other has, is
refused. -/
theorem Bytes.ofText?_eq_none_of_mixed {text : String}
    (hurl : '-' ∈ text.toList ∨ '_' ∈ text.toList)
    (hstandard : '+' ∈ text.toList ∨ '/' ∈ text.toList) : Bytes.ofText? text = none := by
  rw [Option.eq_none_iff_forall_ne_some]
  intro bytes h
  rcases Bytes.ofText?_eq_some_iff.1 h with h | h
  · rcases hstandard with hc | hc
    · exact value?_ne_none_of_decode? h hc (by decide) (by decide)
    · exact value?_ne_none_of_decode? h hc (by decide) (by decide)
  · rcases hurl with hc | hc
    · exact value?_ne_none_of_decode? h hc (by decide) (by decide)
    · exact value?_ne_none_of_decode? h hc (by decide) (by decide)

/-! ## Text documents -/

/-- A byte value as an element of an array. -/
def Json.ofByte (b : UInt8) : Json := .number (.integer b.toNat)

theorem extractor_byte_eq_ok_iff {json : Json} {b : UInt8} {w w' : List TimeoutWarning} :
    Extractor.byte json w = .ok b w' ↔ json = Json.ofByte b ∧ w = w' := by
  have hother (json : Json) (h : ∀ n, json ≠ .number (.integer n))
      (hbyte : Extractor.byte json = Extractor.fail) :
      Extractor.byte json w = .ok b w' ↔ json = Json.ofByte b ∧ w = w' := by
    rw [hbyte]
    exact iff_of_false throw_ne_ok fun hjson => h _ hjson.1
  cases json with
  | number n =>
    cases n with
    | double x => exact hother _ (by simp) rfl
    | integer n =>
      rw [Extractor.byte, Json.ofByte]
      by_cases hn : 0 ≤ n ∧ n < 256
      · rw [if_pos hn, pure_eq_ok_iff, Json.number.injEq, Number.integer.injEq]
        refine and_congr_left fun _ => ⟨?_, ?_⟩
        · rintro rfl
          rw [UInt8.toNat_ofNat_of_lt' (show n.toNat < 256 by omega), Int.toNat_of_nonneg hn.1]
        · rintro rfl
          rw [Int.toNat_natCast, UInt8.ofNat_toNat]
      · rw [if_neg hn]
        refine iff_of_false throw_ne_ok ?_
        rintro ⟨hjson, -⟩
        have hb := b.toNat_lt
        cases hjson
        omega
  | _ => exact hother _ (by simp) rfl

theorem all_byte_eq_ok_iff {items : List Json} {bytes : Bytes} {w w' : List TimeoutWarning} :
    Extractor.all Extractor.byte items w = .ok bytes w' ↔
      items = bytes.map Json.ofByte ∧ w = w' := by
  induction items generalizing bytes w with
  | nil =>
    rw [Extractor.all, pure_eq_ok_iff]
    cases bytes <;> simp
  | cons json items ih =>
    rw [Reader.all_cons_eq_ok_iff]
    simp only [extractor_byte_eq_ok_iff, ih]
    constructor
    · rintro ⟨b, w₁, others, ⟨rfl, rfl⟩, ⟨rfl, rfl⟩, rfl⟩
      exact ⟨rfl, rfl⟩
    · rintro ⟨h, rfl⟩
      cases bytes with
      | nil => cases h
      | cons b bytes =>
        cases h
        exact ⟨b, w, bytes, ⟨rfl, rfl⟩, ⟨rfl, rfl⟩, rfl⟩

/-- A tree gives bytes exactly if it is a text that spells them, or the array of their values. -/
theorem extractor_bytes_eq_ok_iff {json : Json} {bytes : Bytes} {w w' : List TimeoutWarning} :
    Extractor.bytes json w = .ok bytes w' ↔
      ((∃ text, json = .string text ∧ Bytes.ofText? text = some bytes) ∨
        json = .array (bytes.map Json.ofByte)) ∧ w = w' := by
  cases json with
  | string text =>
    rw [Extractor.bytes]
    cases h : Bytes.ofText? text with
    | none => exact iff_of_false throw_ne_ok (by simp [h])
    | some others => simp [pure_eq_ok_iff, h, eq_comm]
  | array items => simp [Extractor.bytes, all_byte_eq_ok_iff]
  | _ => exact iff_of_false throw_ne_ok (by simp)

/-- Names that are repeated somewhere in a value make no difference for bytes. -/
theorem extractor_bytes_resolve (json : Json) :
    Extractor.bytes json.resolve = Extractor.bytes json := by
  cases json with
  | array items =>
    have hbyte (item : Json) : Extractor.byte item.resolve = Extractor.byte item := by
      cases item <;> rfl
    rw [Json.resolve, Json.resolveItems_eq_map, Extractor.bytes, Extractor.bytes]
    induction items with
    | nil => rfl
    | cons item items ih => rw [List.map_cons, Extractor.all, Extractor.all, hbyte, ih]
  | _ => rfl

namespace Schema

variable {text : Bytes} {bytes : Bytes} {w : List TimeoutWarning}

theorem bytes_readText_eq_ok_iff : Schema.bytes.readText text = ⟨.ok bytes, w⟩ ↔
    ∃ json : Json, json.IsTreeOf text ∧ Extractor.bytes json [] = .ok bytes w := by
  rw [Schema.readText, Schema.read]
  exact (Reader.bytes_exact _).run_eq_ok_iff

theorem bytes_readValue_eq_ok_iff : Schema.bytes.readValue text = ⟨.ok bytes, w⟩ ↔
    ∃ json : Json, json.IsTreeOf text ∧ Extractor.bytes json [] = .ok bytes w := by
  simp only [readValue_eq_ok_iff, Schema.extract, extractor_bytes_resolve]

end Schema

/-- Every text that holds the value is read as the bytes, directly and through a tree, without a
warning. -/
def Json.Carries (json : Json) (bytes : Bytes) : Prop :=
  ∀ text, json.Fills text → Schema.bytes.readText text = ⟨.ok bytes, []⟩ ∧
    Schema.bytes.readValue text = ⟨.ok bytes, []⟩

/-- What is read as bytes in either way is a text that spells them, or the array of their values. -/
theorem Schema.bytes_only {text bytes : Bytes}
    (h : (Schema.bytes.readText text).value? = some bytes ∨
      (Schema.bytes.readValue text).value? = some bytes) :
    (∃ spelled, (Json.string spelled).Fills text ∧ Bytes.ofText? spelled = some bytes) ∨
      (Json.array (bytes.map Json.ofByte)).Fills text := by
  -- both ways of reading give the same
  obtain ⟨w, hread⟩ : ∃ w, Schema.bytes.readText text = ⟨.ok bytes, w⟩ := by
    rcases h with h | h
    · exact Reading.value?_eq_some_iff_exists.1 h
    · obtain ⟨w, hread⟩ := Reading.value?_eq_some_iff_exists.1 h
      exact ⟨w, Schema.bytes_readText_eq_ok_iff.2 (Schema.bytes_readValue_eq_ok_iff.1 hread)⟩
  obtain ⟨json, htree, hx⟩ := Schema.bytes_readText_eq_ok_iff.1 hread
  obtain ⟨⟨spelled, rfl, hspelled⟩ | rfl, -⟩ := extractor_bytes_eq_ok_iff.1 hx
  · exact .inl ⟨spelled, htree.1, hspelled⟩
  · exact .inr htree.1

theorem Json.carries_of_extract {json : Json} {bytes : Bytes} (hdepth : json.depth ≤ Reader.maxDepth)
    (hx : Extractor.bytes json [] = .ok bytes []) : json.Carries bytes := fun _ hfills =>
  ⟨Schema.bytes_readText_eq_ok_iff.2 ⟨json, ⟨hfills, hdepth⟩, hx⟩,
    Schema.bytes_readValue_eq_ok_iff.2 ⟨json, ⟨hfills, hdepth⟩, hx⟩⟩

theorem Json.string_carries {spelled : String} {bytes : Bytes}
    (h : Bytes.ofText? spelled = some bytes) : (Json.string spelled).Carries bytes :=
  Json.carries_of_extract (Nat.zero_le _) (extractor_bytes_eq_ok_iff.2 ⟨.inl ⟨_, rfl, h⟩, rfl⟩)

theorem Json.array_carries (bytes : Bytes) : (Json.array (bytes.map Json.ofByte)).Carries bytes := by
  refine Json.carries_of_extract (Nat.succ_le_succ ?_) (extractor_bytes_eq_ok_iff.2 ⟨.inr rfl, rfl⟩)
  refine Json.itemsDepth_le_iff.2 fun json hjson => ?_
  obtain ⟨b, -, rfl⟩ := List.mem_map.1 hjson
  exact Nat.zero_le _

/-- An array with anything in it but integers of one byte is refused in both ways. -/
theorem Schema.bytes_refuses {items : List Json} {item : Json} (hitem : item ∈ items)
    (hother : ∀ b, item ≠ Json.ofByte b) {text : Bytes} (htext : (Json.array items).Fills text) :
    (Schema.bytes.readText text).value? = none ∧ (Schema.bytes.readValue text).value? = none := by
  have hnone (bytes : Bytes) : ¬((Schema.bytes.readText text).value? = some bytes ∨
      (Schema.bytes.readValue text).value? = some bytes) := by
    intro h
    rcases Schema.bytes_only h with ⟨spelled, hspelled, -⟩ | harray
    · cases Json.Fills.unique htext hspelled
    · cases Json.Fills.unique htext harray
      obtain ⟨b, -, rfl⟩ := List.mem_map.1 hitem
      exact hother b rfl
  exact ⟨Option.eq_none_iff_forall_ne_some.2 fun bytes h => hnone bytes (.inl h),
    Option.eq_none_iff_forall_ne_some.2 fun bytes h => hnone bytes (.inr h)⟩

/-! ## Binary items -/

namespace Cbor

/-- What is written for bytes is one piece behind a head. -/
theorem item_write {bytes : Bytes} (hlength : bytes.length < 2 ^ 64) :
    StringKind.bytes.Item [bytes] (write bytes) :=
  .whole (numberHead_headBytes 2 hlength)

theorem pieces_flatMap_write {pieces : List Bytes} (h : ∀ piece ∈ pieces, piece.length < 2 ^ 64) :
    StringKind.bytes.Pieces 0 pieces (pieces.flatMap write ++ [openHead 7]) := by
  induction pieces with
  | nil => exact .stop
  | cons piece pieces ih =>
    rw [List.forall_mem_cons] at h
    rw [List.flatMap_cons, write, List.append_assoc, List.append_assoc]
    exact .piece (numberHead_headBytes 2 h.1) (ih h.2)

/-- What is written for bytes in pieces is an open item of these pieces. -/
theorem item_writePieces {pieces : List Bytes} (h : ∀ piece ∈ pieces, piece.length < 2 ^ 64) :
    StringKind.bytes.Item pieces (writePieces pieces) :=
  .open (pieces_flatMap_write h)

theorem item_writeText {text : String} (hlength : (utf8 text).length < 2 ^ 64) :
    StringKind.text.Item ([text].map utf8) (writeText text) :=
  .whole (numberHead_headBytes 3 hlength)

theorem integerArray_writeArray {bytes : Bytes} (hlength : bytes.length < 2 ^ 64) :
    IntegerArray bytes (writeArray bytes) := by
  have hitems : ByteItems bytes (bytes.map fun b => headBytes 0 b.toNat) := by
    refine List.forall₂_map_right_iff.2 (List.forall₂_same.2 fun b _ => ?_)
    exact .plain (numberHead_headBytes 0 (Nat.lt_trans b.toNat_lt (by decide)))
  exact .counted (numberHead_headBytes 4 hlength) hitems

/-- The head of an array: with the number of its elements, or open. -/
def ArrayHead : Option Nat → Bytes → Prop
  | some n, head => NumberHead 4 n head
  | none, head => head = [openHead 4]

/-- An array is refused where neither an integer of one byte comes next nor the end of the array. -/
theorem read?_array_eq_none {length : Option Nat} {head bytes behind : Bytes} {items : List Bytes}
    (hhead : ArrayHead length head) (hitems : ByteItems bytes items)
    (hleft : ∀ n, length = some n → bytes.length < n)
    (hstop : length = none → ∀ rest, behind ≠ openHead 7 :: rest)
    (hother : ∀ (b : UInt8) item rest, Integer b.toNat item → behind ≠ item ++ rest) :
    read? (head ++ (items.flatten ++ behind)) = none := by
  have hread : head? (head ++ (items.flatten ++ behind)) =
      some (.array length, items.flatten ++ behind) := by
    cases length with
    | none =>
      obtain rfl : head = [openHead 4] := hhead
      exact head?_eq_open_array_iff.2 rfl
    | some n => exact head?_eq_array_iff.2 ⟨head, hhead, rfl⟩
  have hrounds : bytes.length ≤ (head ++ (items.flatten ++ behind)).length := by
    simp only [List.length_append]
    have hlength := hitems.length_le
    omega
  have hbehind (clock : Bytes) :
      byteValues? clock (length.map (· - bytes.length)) behind = none := by
    have hpositive : length.map (· - bytes.length) ≠ some 0 := by
      intro h
      obtain ⟨n, hn, hzero⟩ := Option.map_eq_some_iff.1 h
      have hmore := hleft n hn
      omega
    cases clock with
    | nil =>
      rw [byteValues?]
      exact hpositive
    | cons tick clock =>
      rw [byteValues?_cons hpositive fun rest hopen hhead =>
        hstop (Option.map_eq_none_iff.1 hopen) rest (head?_eq_stop_iff.1 hhead)]
      cases hnumber : natural? behind behind with
      | none => rfl
      | some p =>
        obtain ⟨n, rest⟩ := p
        obtain ⟨item, hitem, hfront⟩ := integer_of_read hnumber
        rw [Option.bind_some]
        dsimp only
        refine if_neg fun hbyte => ?_
        have hvalue : (UInt8.ofNat n).toNat = n := UInt8.toNat_ofNat_of_lt' hbyte
        exact hother (UInt8.ofNat n) item rest (hvalue.symm ▸ hitem) hfront
  rw [read?, hread]
  show byteValues? _ length (items.flatten ++ behind) = none
  rw [hitems.read (fun n hn => Nat.le_of_lt (hleft n hn)) hrounds, hbehind]
  rfl

end Cbor

/-! ## All carriers -/

open Cbor

/-- Every carrier of the bytes is read as the bytes. Behind a binary item anything may stand. -/
structure Bytes.ReadBack (bytes : Bytes) : Prop where
  /-- A text of either alphabet, with any padding. -/
  text : ∀ (a : Alphabet) (padding : Nat), (Json.string (a.spell bytes padding)).Carries bytes
  /-- An array of integers in a text. -/
  array : (Json.array (bytes.map Json.ofByte)).Carries bytes
  /-- The byte string that is written for them. -/
  written : bytes.length < 2 ^ 64 → ∀ rest, read? (write bytes ++ rest) = some bytes
  /-- A byte string behind a head of any width. -/
  string : ∀ head rest, NumberHead 2 bytes.length head →
    read? (head ++ bytes ++ rest) = some bytes
  /-- A byte string that they are cut into pieces for. -/
  cut : ∀ pieces rest, pieces.flatten = bytes → (∀ piece ∈ pieces, piece.length < 2 ^ 64) →
    read? (writePieces pieces ++ rest) = some bytes
  /-- A byte string in pieces of any form. -/
  pieces : ∀ pieces item rest, pieces.flatten = bytes → StringKind.bytes.Item pieces item →
    read? (item ++ rest) = some bytes
  /-- A binary array of integers. -/
  integers : bytes.length < 2 ^ 64 → ∀ rest, read? (writeArray bytes ++ rest) = some bytes
  /-- A binary array, counted or open, with integers of any form. -/
  elements : ∀ item rest, IntegerArray bytes item → read? (item ++ rest) = some bytes
  /-- A text string of either alphabet. -/
  spelled : ∀ (a : Alphabet) padding, (utf8 (a.spell bytes padding)).length < 2 ^ 64 →
    ∀ rest, read? (writeText (a.spell bytes padding) ++ rest) = some bytes
  /-- A text string of either alphabet in pieces of any form. -/
  texts : ∀ (a : Alphabet) padding texts item rest, String.join texts = a.spell bytes padding →
    StringKind.text.Item (texts.map utf8) item → read? (item ++ rest) = some bytes

theorem Bytes.readBack (bytes : Bytes) : bytes.ReadBack := by
  have hread {item : Bytes} (h : Carrier bytes item) (rest : Bytes) :
      read? (item ++ rest) = some bytes := read?_eq_some_iff.2 ⟨item, rest, h, rfl⟩
  constructor
  case text =>
    intro a padding
    exact Json.string_carries (Bytes.ofText?_spell a bytes padding)
  case array => exact Json.array_carries bytes
  case written =>
    intro hlength
    exact hread (.string (item_write hlength) (List.flatten_singleton))
  case string =>
    intro head rest hhead
    exact hread (.string (.whole hhead) (List.flatten_singleton)) rest
  case cut =>
    intro pieces rest hflat hlengths
    exact hread (.string (item_writePieces hlengths) hflat) rest
  case pieces =>
    intro pieces item rest hflat hitem
    exact hread (.string hitem hflat) rest
  case integers =>
    intro hlength
    exact hread (.array (integerArray_writeArray hlength))
  case elements =>
    intro item rest harray
    exact hread (.array harray) rest
  case spelled =>
    intro a padding hlength
    refine hread (.text (item_writeText hlength) ?_)
    have hjoin : String.join [a.spell bytes padding] = a.spell bytes padding := by simp
    rw [hjoin]
    exact Bytes.ofText?_spell a bytes padding
  case texts =>
    intro a padding texts item rest hjoin hitem
    refine hread (.text hitem ?_) rest
    rw [hjoin]
    exact Bytes.ofText?_spell a bytes padding

/-- Bytes are read back from every carrier of them: base 64 of either alphabet with any padding and
arrays of integers in a text, and in a binary form byte strings, arrays and text strings with heads
of any width, whole or in pieces. Two alphabets that both read a text agree, so their order makes no
difference, and a text that needs both is refused. Nothing but a text that spells the bytes or the
array of their values is read as bytes, so an array with anything else in it is refused; and so is a
binary array where neither an integer of one byte nor the end comes next. -/
theorem carriers_agree :
    (∀ bytes : Bytes, bytes.ReadBack) ∧
    (∀ text bytes others, decodeUrl? text = some bytes → decodeStandard? text = some others →
      bytes = others) ∧
    (∀ text, Bytes.ofText? text = (decodeStandard? text <|> decodeUrl? text)) ∧
    (∀ text : String, '-' ∈ text.toList ∨ '_' ∈ text.toList → '+' ∈ text.toList ∨ '/' ∈ text.toList →
      Bytes.ofText? text = none) ∧
    (∀ text bytes : Bytes, (Schema.bytes.readText text).value? = some bytes ∨
      (Schema.bytes.readValue text).value? = some bytes →
        (∃ spelled, (Json.string spelled).Fills text ∧ Bytes.ofText? spelled = some bytes) ∨
          (Json.array (bytes.map Json.ofByte)).Fills text) ∧
    (∀ (items : List Json) (item : Json), item ∈ items → (∀ b, item ≠ Json.ofByte b) →
      ∀ text, (Json.array items).Fills text → (Schema.bytes.readText text).value? = none ∧
        (Schema.bytes.readValue text).value? = none) ∧
    (∀ (length : Option Nat) (head bytes behind : Bytes) (items : List Bytes),
      ArrayHead length head → ByteItems bytes items →
      (∀ n, length = some n → bytes.length < n) →
      (length = none → ∀ rest, behind ≠ openHead 7 :: rest) →
      (∀ (b : UInt8) item rest, Integer b.toNat item → behind ≠ item ++ rest) →
        read? (head ++ (items.flatten ++ behind)) = none) := by
  refine ⟨Bytes.readBack, ?_, Bytes.ofText?_eq_orElse, ?_, ?_, ?_, ?_⟩
  · intro text bytes others hurl hstandard
    exact decoders_agree hurl hstandard
  · intro text hurl hstandard
    exact Bytes.ofText?_eq_none_of_mixed hurl hstandard
  · intro text bytes h
    exact Schema.bytes_only h
  · intro items item hitem hother text htext
    exact Schema.bytes_refuses hitem hother htext
  · intro length head bytes behind items hhead hitems hleft hstop hother
    exact read?_array_eq_none hhead hitems hleft hstop hother

/-- Two bytes whose characters differ in the two alphabets, and a text that needs both alphabets. -/
theorem carriers_agree_of_both_alphabets :
    Schema.bytes.readText (utf8 "\"+/8=\"") = ⟨.ok [0xFB, 0xFF], []⟩ ∧
      Schema.bytes.readValue (utf8 "\"-_8\"") = ⟨.ok [0xFB, 0xFF], []⟩ ∧
      read? [0x5F, 0x41, 0xFB, 0x40, 0x41, 0xFF, 0xFF] = some [0xFB, 0xFF] ∧
      read? [0x82, 0x18, 0xFB, 0x18, 0xFF] = some [0xFB, 0xFF] ∧
      Bytes.ofText? "+_8" = none := by
  obtain ⟨hread, -, -, hmixed, -⟩ := carriers_agree
  have hstandard : (Json.string (Alphabet.standard.spell [0xFB, 0xFF] 1)).IsTreeOf
      (utf8 "\"+/8=\"") := by decide +kernel
  have hurl : (Json.string (Alphabet.url.spell [0xFB, 0xFF] 0)).IsTreeOf (utf8 "\"-_8\"") := by
    decide +kernel
  refine ⟨?_, ?_, ?_, ?_, ?_⟩
  · exact ((hread _).text .standard 1 _ hstandard.1).1
  · exact ((hread _).text .url 0 _ hurl.1).2
  · exact (hread [0xFB, 0xFF]).cut [[0xFB], [], [0xFF]] [] rfl (by decide)
  · exact (hread [0xFB, 0xFF]).integers (by decide) []
  · exact hmixed "+_8" (.inr (by decide)) (.inl (by decide))

end CredentialCeremony
