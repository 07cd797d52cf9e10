import CredentialCeremony.Proofs.Binary.Base64
import Mathlib.Algebra.Group.Nat.Defs
import Mathlib.Data.List.DropRight
import Mathlib.Data.List.ModifyLast

set_option autoImplicit false

/-!
# Base 64 bit by bit

A symbol of base 64 stands for six bits, its place in the alphabet, and a byte is eight bits. Reading
cuts the bits of a text into bytes from the front; two or four bits at the end may be left over and
belong to no byte. Writing cuts the bits of bytes into groups of six and fills the last one up with
zeros. Cutting a number into two is the same as cutting its bits into two (`bitsOf_add`), and from
this every regrouping follows (`bitsOf_regroup`).

Main statement: which texts are read loosely, as which bytes, and when two of them are read as the
same bytes; and that what is written for bytes is read as these bytes with any padding
(`Base64.loose_reading`).
-/

namespace CredentialCeremony

/-! ## The bits of a number -/

/-- The lowest bits of a number, the highest of them first. -/
def bitsOf : (width : Nat) → Nat → List Bool
  | 0, _ => []
  | width + 1, n => n.testBit width :: bitsOf width n

@[simp] theorem length_bitsOf (width n : Nat) : (bitsOf width n).length = width := by
  induction width with
  | zero => rfl
  | succ width ih => rw [bitsOf, List.length_cons, ih]

/-- The bits of a number are those of what is left of it behind a cut, and then the others. -/
theorem bitsOf_add (width more n : Nat) :
    bitsOf (width + more) n = bitsOf width (n / 2 ^ more) ++ bitsOf more n := by
  induction width with
  | zero => rw [Nat.zero_add, bitsOf, List.nil_append]
  | succ width ih =>
    have hbit : (n / 2 ^ more).testBit width = n.testBit (width + more) :=
      Nat.testBit_div_two_pow n width
    rw [Nat.add_right_comm, bitsOf, bitsOf, ih, hbit, List.cons_append]

theorem bitsOf_eq_iff {width m n : Nat} :
    bitsOf width m = bitsOf width n ↔ ∀ i < width, m.testBit i = n.testBit i := by
  induction width with
  | zero => simp [bitsOf]
  | succ width ih =>
    rw [bitsOf, bitsOf, List.cons.injEq, ih]
    constructor
    · rintro ⟨hlast, hothers⟩ i hi
      rcases Nat.lt_succ_iff_lt_or_eq.1 hi with hi | rfl
      · exact hothers i hi
      · exact hlast
    · intro h
      exact ⟨h width (Nat.lt_succ_self width), fun i hi => h i (Nat.lt_succ_of_lt hi)⟩

/-- Only the lowest bits of a number matter. -/
theorem bitsOf_mod (width n : Nat) : bitsOf width (n % 2 ^ width) = bitsOf width n := by
  refine bitsOf_eq_iff.2 fun i hi => ?_
  rw [Nat.testBit_mod_two_pow, decide_eq_true hi, Bool.true_and]

theorem eq_of_bitsOf_eq {width m n : Nat} (hm : m < 2 ^ width) (hn : n < 2 ^ width)
    (h : bitsOf width m = bitsOf width n) : m = n := by
  have hbits := bitsOf_eq_iff.1 h
  refine Nat.eq_of_testBit_eq fun i => ?_
  by_cases hi : i < width
  · exact hbits i hi
  -- higher bits are zero
  · have hpow : 2 ^ width ≤ 2 ^ i := Nat.pow_le_pow_right (by omega) (by omega)
    rw [Nat.testBit_lt_two_pow (Nat.lt_of_lt_of_le hm hpow),
      Nat.testBit_lt_two_pow (Nat.lt_of_lt_of_le hn hpow)]

/-- The lowest bits of a number and the highest of a second one are those of a third; the bits of the
second that are left stay behind. -/
theorem bitsOf_regroup (width more left m : Nat) {n : Nat} (hn : n < 2 ^ (more + left)) :
    bitsOf width m ++ bitsOf (more + left) n =
      bitsOf (width + more) (m % 2 ^ width * 2 ^ more + n / 2 ^ left) ++ bitsOf left n := by
  have hhigh : n / 2 ^ left < 2 ^ more := by
    rw [Nat.div_lt_iff_lt_mul (Nat.two_pow_pos left), ← Nat.pow_add]
    exact hn
  have hdiv : (m % 2 ^ width * 2 ^ more + n / 2 ^ left) / 2 ^ more = m % 2 ^ width := by
    rw [Nat.mul_comm, Nat.mul_add_div (Nat.two_pow_pos more), Nat.div_eq_of_lt hhigh, Nat.add_zero]
  have hmod : (m % 2 ^ width * 2 ^ more + n / 2 ^ left) % 2 ^ more = n / 2 ^ left := by
    rw [Nat.mul_comm, Nat.mul_add_mod, Nat.mod_eq_of_lt hhigh]
  rw [bitsOf_add more left n, bitsOf_add width more, hdiv, bitsOf_mod,
    ← bitsOf_mod more (m % 2 ^ width * 2 ^ more + n / 2 ^ left), hmod, List.append_assoc]

/-! ## The bits of bytes -/

/-- The eight bits of a byte. -/
def byteBits (b : UInt8) : List Bool := bitsOf 8 b.toNat

theorem byteBits_ofNat {n : Nat} (h : n < 256) : byteBits (UInt8.ofNat n) = bitsOf 8 n := by
  rw [byteBits, UInt8.toNat_ofNat_of_lt' h]

theorem length_flatMap_byteBits (bytes : Bytes) :
    (bytes.flatMap byteBits).length = 8 * bytes.length := by
  induction bytes with
  | nil => rfl
  | cons b bytes ih =>
    rw [List.flatMap_cons, List.length_append, ih, byteBits, length_bitsOf, List.length_cons]
    omega

/-- Bytes are told by their bits. -/
theorem eq_of_flatMap_byteBits_eq {xs ys : Bytes}
    (h : xs.flatMap byteBits = ys.flatMap byteBits) : xs = ys := by
  have hlength : xs.length = ys.length := by
    have hbits := congrArg List.length h
    rw [length_flatMap_byteBits, length_flatMap_byteBits] at hbits
    omega
  induction xs generalizing ys with
  | nil => exact (List.eq_nil_of_length_eq_zero hlength.symm).symm
  | cons x xs ih =>
    obtain ⟨y, ys, rfl⟩ := List.exists_cons_of_length_eq_add_one hlength.symm
    rw [List.flatMap_cons, List.flatMap_cons] at h
    obtain ⟨hfirst, hrest⟩ := List.append_inj h (by rw [byteBits, byteBits, length_bitsOf,
      length_bitsOf])
    have hbyte : x = y := UInt8.toNat_inj.1 (eq_of_bitsOf_eq x.toNat_lt y.toNat_lt hfirst)
    rw [hbyte, ih hrest (Nat.succ.inj hlength)]

namespace Base64

/-! ## Groups of six bits -/

/-- A group of six bits and the first two of the next make a byte. -/
theorem bits_first {p q : Nat} (hp : p < 64) (hq : q < 64) :
    bitsOf 6 p ++ bitsOf 6 q = byteBits (UInt8.ofNat (p * 4 + q / 16)) ++ bitsOf 4 q := by
  have h := bitsOf_regroup 6 2 4 p (n := q) hq
  rw [byteBits_ofNat (by omega)]
  simpa [Nat.mod_eq_of_lt hp] using h

/-- The last four bits of a group and the first four of the next make a byte. -/
theorem bits_second (q : Nat) {r : Nat} (hr : r < 64) :
    bitsOf 4 q ++ bitsOf 6 r = byteBits (UInt8.ofNat (q % 16 * 16 + r / 4)) ++ bitsOf 2 r := by
  have h := bitsOf_regroup 4 4 2 q (n := r) hr
  rw [byteBits_ofNat (by omega)]
  simpa using h

/-- The last two bits of a group and the next group make a byte. -/
theorem bits_third (r : Nat) {s : Nat} (hs : s < 64) :
    bitsOf 2 r ++ bitsOf 6 s = byteBits (UInt8.ofNat (r % 4 * 64 + s)) := by
  have h := bitsOf_regroup 2 6 0 r (n := s) hs
  rw [byteBits_ofNat (by omega)]
  simpa [bitsOf] using h

/-- The bytes that groups hold are the bits of the groups up to fewer than eight. -/
theorem bits_bytesOf {strict : Bool} {groups : List Nat} {bytes : Bytes}
    (hgroups : ∀ g ∈ groups, g < 64) (h : bytesOf strict groups = some bytes) :
    bytes.flatMap byteBits <+: groups.flatMap (bitsOf 6) ∧
      bytes.length = 6 * groups.length / 8 := by
  fun_induction bytesOf strict groups generalizing bytes with
  | case1 =>
    cases h
    exact ⟨List.prefix_rfl, rfl⟩
  | case2 => cases h
  | case3 => cases h
  | case4 p q hspare =>
    cases h
    simp only [List.forall_mem_cons] at hgroups
    refine ⟨⟨bitsOf 4 q, ?_⟩, by simp⟩
    simp only [List.flatMap_cons, List.flatMap_nil, List.append_nil]
    exact (bits_first hgroups.1 hgroups.2.1).symm
  | case5 => cases h
  | case6 p q r hspare =>
    cases h
    simp only [List.forall_mem_cons] at hgroups
    refine ⟨⟨bitsOf 2 r, ?_⟩, by simp⟩
    simp only [List.flatMap_cons, List.flatMap_nil, List.append_nil, List.append_assoc]
    rw [← bits_second q hgroups.2.2.1, ← List.append_assoc, ← bits_first hgroups.1 hgroups.2.1,
      List.append_assoc]
  | case7 p q r s rest ih =>
    obtain ⟨others, hothers, rfl⟩ := Option.map_eq_some_iff.1 h
    simp only [List.forall_mem_cons] at hgroups
    obtain ⟨⟨spare, hbits⟩, hlength⟩ := ih hgroups.2.2.2.2 hothers
    refine ⟨⟨spare, ?_⟩, ?_⟩
    · -- four groups are three bytes without a rest
      have hfour : bitsOf 6 p ++ (bitsOf 6 q ++ (bitsOf 6 r ++ bitsOf 6 s)) =
          byteBits (UInt8.ofNat (p * 4 + q / 16)) ++
            (byteBits (UInt8.ofNat (q % 16 * 16 + r / 4)) ++
              byteBits (UInt8.ofNat (r % 4 * 64 + s))) := by
        rw [← bits_third r hgroups.2.2.2.1, ← List.append_assoc, bits_first hgroups.1 hgroups.2.1,
          List.append_assoc, ← List.append_assoc (bitsOf 4 q), bits_second q hgroups.2.2.1,
          List.append_assoc]
      simp only [List.flatMap_cons, ← hbits]
      simp only [← List.append_assoc] at hfour ⊢
      rw [hfour]
    · simp only [List.length_cons, hlength]
      omega

/-- A group without its lowest bits. -/
def clearLow (spare n : Nat) : Nat := n / 2 ^ spare * 2 ^ spare

/-- Written again, the bytes that groups hold are these groups, but for the bits left over. -/
theorem sextetsOf_bytesOf {groups : List Nat} {bytes : Bytes} (hgroups : ∀ g ∈ groups, g < 64)
    (h : bytesOf false groups = some bytes) :
    sextetsOf bytes = groups.modifyLast (clearLow (6 * groups.length % 8)) := by
  have byte {n : Nat} (hn : n < 256) : (UInt8.ofNat n).toNat = n := UInt8.toNat_ofNat_of_lt' hn
  fun_induction bytesOf false groups generalizing bytes with
  | case1 =>
    cases h
    rfl
  | case2 => cases h
  | case3 => cases h
  | case4 p q hspare =>
    cases h
    simp only [List.forall_mem_cons] at hgroups
    have hlast := List.modifyLast_concat (clearLow 4) q [p]
    rw [show 6 * [p, q].length % 8 = 4 by simp]
    refine Eq.trans ?_ hlast.symm
    simp only [sextetsOf, byte (show p * 4 + q / 16 < 256 by omega), clearLow, List.cons_append,
      List.nil_append, List.cons.injEq, and_true]
    omega
  | case5 => cases h
  | case6 p q r hspare =>
    cases h
    simp only [List.forall_mem_cons] at hgroups
    have hlast := List.modifyLast_concat (clearLow 2) r [p, q]
    rw [show 6 * [p, q, r].length % 8 = 2 by simp]
    refine Eq.trans ?_ hlast.symm
    simp only [sextetsOf, byte (show p * 4 + q / 16 < 256 by omega),
      byte (show q % 16 * 16 + r / 4 < 256 by omega), clearLow, List.cons_append, List.nil_append,
      List.cons.injEq, and_true]
    omega
  | case7 p q r s rest ih =>
    obtain ⟨others, hothers, rfl⟩ := Option.map_eq_some_iff.1 h
    simp only [List.forall_mem_cons] at hgroups
    have hrest := ih hgroups.2.2.2.2 hothers
    have hlength : 6 * (p :: q :: r :: s :: rest).length % 8 = 6 * rest.length % 8 := by
      simp only [List.length_cons]
      omega
    have hlast : (p :: q :: r :: s :: rest).modifyLast (clearLow (6 * rest.length % 8)) =
        p :: q :: r :: s :: rest.modifyLast (clearLow (6 * rest.length % 8)) := by
      cases rest with
      -- behind four groups nothing is left over
      | nil =>
        refine (List.modifyLast_concat (clearLow 0) s [p, q, r]).trans ?_
        rw [clearLow, Nat.pow_zero, Nat.div_one, Nat.mul_one]
        rfl
      | cons g rest => exact List.modifyLast_append_of_right_ne_nil _ [p, q, r, s] _ (by simp)
    rw [hlength, hlast, sextetsOf, hrest, byte (show p * 4 + q / 16 < 256 by omega),
      byte (show q % 16 * 16 + r / 4 < 256 by omega), byte (show r % 4 * 64 + s < 256 by omega)]
    simp only [List.cons.injEq, and_true]
    omega

/-! ## Characters -/

/-- The characters of the URL alphabet, each in its place. -/
def urlSymbols : List Char :=
  "ABCDEFGHIJKLMNOPQRSTUVWXYZabcdefghijklmnopqrstuvwxyz0123456789-_".toList

/-- The six bits that a character stands for: its place in the alphabet. -/
def symbolBits (c : Char) : List Bool := bitsOf 6 (urlSymbols.idxOf c)

/-- A character that stands for a group is the character of the group. -/
theorem Alphabet.symbol_of_value? {a : Alphabet} {c : Char} {n : Nat} (h : a.value? c = some n) :
    n < 64 ∧ a.symbol n = c := by
  have hchar {m : Nat} (hm : m = c.toNat) : Char.ofNat m = c := by rw [hm, Char.ofNat_toNat]
  unfold Alphabet.value? at h
  split at h
  · rename_i hupper
    cases h
    have hrange : 65 ≤ c.toNat ∧ c.toNat ≤ 90 := of_decide_eq_true hupper
    refine ⟨by omega, ?_⟩
    rw [Alphabet.symbol, if_pos (by omega), hchar (by omega)]
  split at h
  · rename_i hlower
    cases h
    have hrange : 97 ≤ c.toNat ∧ c.toNat ≤ 122 := by
      obtain ⟨hlow, hhigh⟩ := Bool.and_eq_true_iff.1 hlower
      exact ⟨of_decide_eq_true hlow, of_decide_eq_true hhigh⟩
    refine ⟨by omega, ?_⟩
    rw [Alphabet.symbol, if_neg (by omega), if_pos (by omega), hchar (by omega)]
  split at h
  · rename_i hdigit
    cases h
    have hrange : 48 ≤ c.toNat ∧ c.toNat ≤ 57 := by
      simpa [Char.isDigit, UInt32.le_iff_toNat_le] using hdigit
    refine ⟨by omega, ?_⟩
    rw [Alphabet.symbol, if_neg (by omega), if_neg (by omega), if_pos (by omega), hchar (by omega)]
  split at h
  · rename_i hlast
    cases h
    exact ⟨by omega, hlast.symm⟩
  split at h
  · rename_i hlast
    cases h
    exact ⟨by omega, hlast.symm⟩
  · cases h

theorem idxOf_symbol : ∀ n < 64, urlSymbols.idxOf (Alphabet.url.symbol n) = n := by
  decide +kernel

/-- A character stands for its place in the alphabet. -/
theorem idxOf_of_value? {c : Char} {n : Nat} (h : Alphabet.url.value? c = some n) :
    urlSymbols.idxOf c = n := by
  obtain ⟨hn, rfl⟩ := Alphabet.symbol_of_value? h
  exact idxOf_symbol n hn

/-- The groups of a text that is read are the places of its characters. -/
theorem groups_of_mapM {text : List Char} {groups : List Nat}
    (h : text.mapM Alphabet.url.value? = some groups) :
    (∀ g ∈ groups, g < 64) ∧ groups = text.map urlSymbols.idxOf ∧
      text = groups.map Alphabet.url.symbol := by
  have hall := mapM_eq_some_iff.1 h
  clear h
  induction hall with
  | nil => simp
  | @cons c n text groups hc hrest ih =>
    obtain ⟨hsmall, hplaces, hsymbols⟩ := ih
    obtain ⟨hn, hsymbol⟩ := Alphabet.symbol_of_value? hc
    refine ⟨?_, ?_, ?_⟩
    · exact List.forall_mem_cons.2 ⟨hn, hsmall⟩
    · rw [List.map_cons, idxOf_of_value? hc, ← hplaces]
    · rw [List.map_cons, hsymbol, ← hsymbols]

/-- The symbol for a group without its lowest bits. -/
def clearedSymbol (spare : Nat) (c : Char) : Char :=
  Alphabet.url.symbol (clearLow spare (urlSymbols.idxOf c))

/-- A text whose last character lacks the bits that belong to no byte. -/
def withoutSpareBits (symbols : List Char) : List Char :=
  symbols.modifyLast (clearedSymbol (6 * symbols.length % 8))

theorem map_symbol_modifyLast {groups : List Nat} (spare : Nat) (h : ∀ g ∈ groups, g < 64) :
    (groups.modifyLast (clearLow spare)).map Alphabet.url.symbol =
      (groups.map Alphabet.url.symbol).modifyLast (clearedSymbol spare) := by
  rcases List.eq_nil_or_concat groups with rfl | ⟨front, last, rfl⟩
  · rfl
  · have hlast : last < 64 := h last (by simp)
    rw [List.concat_eq_append, List.modifyLast_concat, List.map_append, List.map_append,
      List.map_singleton, List.map_singleton, List.modifyLast_concat, clearedSymbol,
      idxOf_symbol last hlast]

/-! ## Padding -/

/-- What padding is put behind a text is ignored. -/
theorem unpadded_append_padding (text : List Char) (k : Nat) :
    unpadded (text ++ List.replicate k '=') = unpadded text := by
  have hpadding : ∀ c ∈ List.replicate k '=', (c == '=') = true := by
    intro c hc
    rw [List.eq_of_mem_replicate hc]
    rfl
  rw [unpadded, List.reverse_append, List.reverse_replicate, List.dropWhile_append_of_pos hpadding,
    unpadded]

/-- A text is what is left of it without padding, and some padding. -/
theorem exists_eq_unpadded_append (text : List Char) :
    ∃ k, text = unpadded text ++ List.replicate k '=' := by
  have hpadding : text.rtakeWhile (· == '=') =
      List.replicate (text.rtakeWhile (· == '=')).length '=' := by
    refine List.eq_replicate_of_mem fun c hc => ?_
    exact beq_iff_eq.1 (List.mem_rtakeWhile_imp (p := (· == '=')) hc)
  refine ⟨(text.rtakeWhile (· == '=')).length, ?_⟩
  rw [← hpadding]
  exact List.rdropWhile_append_rtakeWhile.symm

theorem getLast?_unpadded_ne (text : List Char) : (unpadded text).getLast? ≠ some '=' := by
  intro hpadding
  by_cases hne : text.rdropWhile (· == '=') = []
  · rw [show unpadded text = [] from hne] at hpadding
    cases hpadding
  · have hlast : (unpadded text).getLast? = some ((text.rdropWhile (· == '=')).getLast hne) :=
      List.getLast?_eq_some_getLast hne
    have hnot := List.rdropWhile_last_not (· == '=') text hne
    rw [hlast, Option.some.injEq] at hpadding
    rw [hpadding] at hnot
    exact hnot rfl

/-! ## Reading and writing -/

variable {text : String} {bytes : Bytes}

/-- What is read from a text are the groups of its characters. -/
theorem exists_groups_of_decodeUrl? (h : decodeUrl? text = some bytes) :
    ∃ groups : List Nat, (∀ g ∈ groups, g < 64) ∧
      groups = (unpadded text.toList).map urlSymbols.idxOf ∧
      unpadded text.toList = groups.map Alphabet.url.symbol ∧
      bytesOf false groups = some bytes := by
  obtain ⟨groups, hgroups, hbytes⟩ := Option.bind_eq_some_iff.1 h
  obtain ⟨hsmall, hplaces, hsymbols⟩ := groups_of_mapM hgroups
  exact ⟨groups, hsmall, hplaces, hsymbols, hbytes⟩

/-- The bytes are the bits of the text, as far as these make bytes. -/
theorem bits_of_decodeUrl? (h : decodeUrl? text = some bytes) :
    bytes.length = 6 * (unpadded text.toList).length / 8 ∧
      bytes.flatMap byteBits =
        ((unpadded text.toList).flatMap symbolBits).take (8 * bytes.length) := by
  obtain ⟨groups, hsmall, hplaces, -, hbytes⟩ := exists_groups_of_decodeUrl? h
  obtain ⟨hbits, hlength⟩ := bits_bytesOf hsmall hbytes
  have hgroups : groups.flatMap (bitsOf 6) = (unpadded text.toList).flatMap symbolBits := by
    rw [hplaces, List.flatMap_map]
    rfl
  refine ⟨?_, ?_⟩
  · rw [hlength, hplaces, List.length_map]
  · rw [hgroups, List.prefix_iff_eq_take, length_flatMap_byteBits] at hbits
    exact hbits

/-- A text is read exactly if it is loose, and its bits tell the bytes. -/
theorem decodeUrl?_eq_some_iff_bits :
    decodeUrl? text = some bytes ↔ Loose text ∧
      bytes.length = 6 * (unpadded text.toList).length / 8 ∧
      bytes.flatMap byteBits =
        ((unpadded text.toList).flatMap symbolBits).take (8 * bytes.length) := by
  constructor
  · intro h
    exact ⟨isSome_decodeUrl?_iff.1 (by rw [h]; rfl), bits_of_decodeUrl? h⟩
  · rintro ⟨hloose, hlength, hbits⟩
    obtain ⟨others, hothers⟩ := Option.isSome_iff_exists.1 (isSome_decodeUrl?_iff.2 hloose)
    obtain ⟨hlength', hbits'⟩ := bits_of_decodeUrl? hothers
    have heq : others.flatMap byteBits = bytes.flatMap byteBits := by
      rw [hbits, hbits', hlength, hlength']
    rw [hothers, eq_of_flatMap_byteBits_eq heq]

theorem length_encode (bytes : Bytes) : (encode bytes).length = (8 * bytes.length + 5) / 6 := by
  rw [encode, String.length_ofList, List.length_map, sextetsOf_length]
  omega

theorem isUrlSymbol_of_mem_encode {c : Char} (h : c ∈ (encode bytes).toList) :
    isUrlSymbol c = true := by
  rw [encode, String.toList_ofList] at h
  obtain ⟨n, hn, rfl⟩ := List.mem_map.1 h
  rw [← isSome_value?_iff, Alphabet.value?_symbol .url n (lt_of_mem_sextetsOf hn)]
  rfl

theorem decodeUrl?_encode_padded (bytes : Bytes) (k : Nat) :
    decodeUrl? (encode bytes ++ String.ofList (List.replicate k '=')) = some bytes := by
  rw [decodeUrl?, decode?, String.toList_append, String.toList_ofList, unpadded_append_padding]
  exact decodeUrl?_encode bytes

/-- Written again, the bytes of a text are the text without padding and spare bits. -/
theorem encode_of_decodeUrl? (h : decodeUrl? text = some bytes) :
    (encode bytes).toList = withoutSpareBits (unpadded text.toList) := by
  obtain ⟨groups, hsmall, -, hsymbols, hbytes⟩ := exists_groups_of_decodeUrl? h
  rw [encode, String.toList_ofList, sextetsOf_bytesOf hsmall hbytes,
    map_symbol_modifyLast _ hsmall, ← hsymbols, withoutSpareBits, hsymbols, List.length_map]

theorem length_withoutSpareBits (symbols : List Char) :
    (withoutSpareBits symbols).length = symbols.length := by
  rw [withoutSpareBits]
  rcases List.eq_nil_or_concat symbols with rfl | ⟨front, last, rfl⟩
  · rfl
  · rw [List.concat_eq_append, List.modifyLast_concat, List.length_append, List.length_append,
      List.length_singleton, List.length_singleton]

/-- Texts are read as the same bytes exactly if they differ in their padding and spare bits only. -/
theorem eq_iff_of_decodeUrl? {other : String} {others : Bytes} (h : decodeUrl? text = some bytes)
    (hother : decodeUrl? other = some others) :
    bytes = others ↔ (unpadded text.toList).length = (unpadded other.toList).length ∧
      withoutSpareBits (unpadded text.toList) = withoutSpareBits (unpadded other.toList) := by
  constructor
  · rintro rfl
    have hsame : withoutSpareBits (unpadded text.toList) =
        withoutSpareBits (unpadded other.toList) :=
      (encode_of_decodeUrl? h).symm.trans (encode_of_decodeUrl? hother)
    refine ⟨?_, hsame⟩
    rw [← length_withoutSpareBits, hsame, length_withoutSpareBits]
  · rintro ⟨-, hsame⟩
    have hwritten : encode bytes = encode others := by
      rw [← String.toList_inj, encode_of_decodeUrl? h, encode_of_decodeUrl? hother, hsame]
    have hread := decodeUrl?_encode bytes
    rw [hwritten, decodeUrl?_encode] at hread
    exact (Option.some_inj.1 hread).symm

/-- A text, its padding taken off, is read exactly if it is in the alphabet and no single character
is left over; its bytes are its bits as far as these make bytes. What is written for bytes has no
padding, is in the alphabet and is read as these bytes with any padding. Writing what was read takes
the padding and the spare bits of the last character off, and these are all in which two texts of the
same bytes differ. -/
theorem loose_reading :
    (∀ text : List Char, (∃ k, text = unpadded text ++ List.replicate k '=') ∧
      (unpadded text).getLast? ≠ some '=') ∧
    (∀ (text : String) (bytes : Bytes), decodeUrl? text = some bytes ↔ Loose text ∧
      bytes.length = 6 * (unpadded text.toList).length / 8 ∧
      bytes.flatMap byteBits =
        ((unpadded text.toList).flatMap symbolBits).take (8 * bytes.length)) ∧
    (∀ bytes : Bytes, (encode bytes).length = (8 * bytes.length + 5) / 6 ∧
      (∀ c ∈ (encode bytes).toList, isUrlSymbol c = true) ∧
      ∀ k, decodeUrl? (encode bytes ++ String.ofList (List.replicate k '=')) = some bytes) ∧
    (∀ (text : String) (bytes : Bytes), decodeUrl? text = some bytes →
      (encode bytes).toList = withoutSpareBits (unpadded text.toList)) ∧
    (∀ (text other : String) (bytes others : Bytes), decodeUrl? text = some bytes →
      decodeUrl? other = some others →
      (bytes = others ↔ (unpadded text.toList).length = (unpadded other.toList).length ∧
        withoutSpareBits (unpadded text.toList) = withoutSpareBits (unpadded other.toList))) := by
  refine ⟨?_, ?_, ?_, ?_, ?_⟩
  · intro text
    exact ⟨exists_eq_unpadded_append text, getLast?_unpadded_ne text⟩
  · intro text bytes
    exact decodeUrl?_eq_some_iff_bits
  · intro bytes
    refine ⟨length_encode bytes, ?_, decodeUrl?_encode_padded bytes⟩
    intro c hc
    exact isUrlSymbol_of_mem_encode hc
  · intro text bytes h
    exact encode_of_decodeUrl? h
  · intro text other bytes others h hother
    exact eq_iff_of_decodeUrl? h hother

/-- Two texts of one byte: the spare bits of the first are not zero, and the second is padded. -/
theorem loose_reading_of_spare_bits :
    decodeUrl? "AB" = some [0] ∧ decodeUrl? "AA==" = some [0] ∧
      (encode [0]).toList = withoutSpareBits (unpadded "AB".toList) ∧
      withoutSpareBits (unpadded "AB".toList) = withoutSpareBits (unpadded "AA==".toList) := by
  have hspare : decodeUrl? "AB" = some [0] := by decide +kernel
  have hpadded : decodeUrl? "AA==" = some [0] := by decide +kernel
  obtain ⟨-, -, -, hwritten, hsame⟩ := loose_reading
  exact ⟨hspare, hpadded, hwritten _ _ hspare, ((hsame _ _ _ _ hspare hpadded).1 rfl).2⟩

end Base64
end CredentialCeremony
