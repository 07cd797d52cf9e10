import CredentialCeremony.Binary.Cbor
import Mathlib.Algebra.Group.Nat.Defs

set_option autoImplicit false

/-!
# Heads of binary items

A head is a byte with a major type and five more bits, which are a number below 24, or tell that the
number follows in one, two, four or eight bytes, or that the item is open. A number may be written
wider than it has to be (`Cbor.NumberHead`).

Main statements: the bytes of a width are the numbers below a power of 256
(`Cbor.bigEndianOf_bigEndian`), and a head is read exactly where it is written, in any width
(`Cbor.head?_eq_number_iff`, `Cbor.head?_eq_open_iff`).
-/

namespace CredentialCeremony.Cbor

/-! ## Numbers of a width -/

theorem bigEndian_nil : bigEndian [] = 0 := rfl

theorem foldl_bigEndian (bytes : Bytes) (start : Nat) :
    bytes.foldl (fun n (b : UInt8) => 256 * n + b.toNat) start =
      start * 256 ^ bytes.length + bigEndian bytes := by
  induction bytes generalizing start with
  | nil => simp [bigEndian]
  | cons b bytes ih =>
    rw [bigEndian, List.foldl_cons, List.foldl_cons, ih, ih (256 * 0 + b.toNat), List.length_cons,
      Nat.pow_succ]
    grind

theorem bigEndian_cons (b : UInt8) (bytes : Bytes) :
    bigEndian (b :: bytes) = b.toNat * 256 ^ bytes.length + bigEndian bytes := by
  rw [bigEndian, List.foldl_cons, foldl_bigEndian]
  simp

/-- As many bytes spell a number below that power of 256. -/
theorem bigEndian_lt (bytes : Bytes) : bigEndian bytes < 256 ^ bytes.length := by
  induction bytes with
  | nil => simp [bigEndian_nil]
  | cons b bytes ih =>
    have hb := b.toNat_lt
    rw [bigEndian_cons, List.length_cons, Nat.pow_succ]
    calc b.toNat * 256 ^ bytes.length + bigEndian bytes
        < b.toNat * 256 ^ bytes.length + 256 ^ bytes.length := by omega
      _ = (b.toNat + 1) * 256 ^ bytes.length := by rw [Nat.succ_mul]
      _ ≤ 256 * 256 ^ bytes.length := Nat.mul_le_mul_right _ (by omega)
      _ = 256 ^ bytes.length * 256 := Nat.mul_comm _ _

/-- Zeros in front change no number. -/
theorem bigEndian_dropWhile (bytes : Bytes) :
    bigEndian (bytes.dropWhile (· == 0)) = bigEndian bytes := by
  induction bytes with
  | nil => rfl
  | cons b bytes ih =>
    by_cases hb : b = 0
    · rw [List.dropWhile_cons_of_pos (by simp [hb]), ih, bigEndian_cons, hb, UInt8.toNat_zero,
        Nat.zero_mul, Nat.zero_add]
    · rw [List.dropWhile_cons_of_neg (by simp [hb])]

/-- How many bytes are left behind the zeros in front tells how great the number is. -/
theorem length_dropWhile_le_iff {bytes : Bytes} {k : Nat} :
    (bytes.dropWhile (· == 0)).length ≤ k ↔ bigEndian bytes < 256 ^ k := by
  rw [← bigEndian_dropWhile]
  constructor
  · intro h
    exact Nat.lt_of_lt_of_le (bigEndian_lt _) (Nat.pow_le_pow_right (by decide) h)
  · intro h
    refine Nat.le_of_not_lt fun hlong => ?_
    -- a byte that is not zero stands in front of at least `k` others
    cases hdigits : bytes.dropWhile (· == 0) with
    | nil => simp [hdigits] at hlong
    | cons b behind =>
      have hb : b ≠ 0 := by
        have hfirst := List.head?_dropWhile_not (· == 0) bytes
        rw [hdigits] at hfirst
        simpa using hfirst
      have hpos : 1 ≤ b.toNat := Nat.pos_of_ne_zero fun h => hb (UInt8.toNat_inj.1 h)
      rw [hdigits, List.length_cons] at hlong
      rw [hdigits, bigEndian_cons] at h
      have hpow : 256 ^ k ≤ 256 ^ behind.length := Nat.pow_le_pow_right (by decide) (by omega)
      have hgreat : 1 * 256 ^ behind.length ≤ b.toNat * 256 ^ behind.length :=
        Nat.mul_le_mul_right _ hpos
      omega

/-- Only the lowest bytes of a number are written. -/
theorem bigEndianOf_add (width m n : Nat) :
    bigEndianOf width (m * 256 ^ width + n) = bigEndianOf width n := by
  induction width generalizing m n with
  | zero => rfl
  | succ width ih =>
    have hpow : m * 256 ^ (width + 1) = (256 * m) * 256 ^ width := by
      rw [Nat.pow_succ]
      grind
    have hbyte : UInt8.ofNat ((256 * m * 256 ^ width + n) / 256 ^ width) =
        UInt8.ofNat (n / 256 ^ width) := by
      rw [Nat.mul_comm (256 * m), Nat.mul_add_div (Nat.pow_pos (by decide))]
      refine UInt8.toNat_inj.1 ?_
      rw [UInt8.toNat_ofNat', UInt8.toNat_ofNat']
      omega
    rw [hpow, bigEndianOf, bigEndianOf, ih]
    exact congrArg (· :: _) hbyte

/-- Bytes are the ones that are written for the number they spell. -/
theorem bigEndianOf_bigEndian (bytes : Bytes) :
    bigEndianOf bytes.length (bigEndian bytes) = bytes := by
  induction bytes with
  | nil => rfl
  | cons b bytes ih =>
    have hlow := bigEndian_lt bytes
    have hfirst : (b.toNat * 256 ^ bytes.length + bigEndian bytes) / 256 ^ bytes.length =
        b.toNat := by
      rw [Nat.mul_comm, Nat.mul_add_div (Nat.pow_pos (by decide)), Nat.div_eq_of_lt hlow,
        Nat.add_zero]
    rw [List.length_cons, bigEndian_cons, bigEndianOf, bigEndianOf_add, ih]
    exact congrArg (· :: bytes) ((congrArg UInt8.ofNat hfirst).trans UInt8.ofNat_toNat)

theorem split?_eq_some_iff {n : Nat} {input front rest : Bytes} :
    split? n input = some (front, rest) ↔ front.length = n ∧ input = front ++ rest := by
  constructor
  · intro h
    unfold split? at h
    split at h
    · rename_i hle
      cases h
      exact ⟨List.length_take_of_le hle, (List.take_append_drop n input).symm⟩
    · cases h
  · rintro ⟨hlength, rfl⟩
    exact split?_append hlength

/-! ## Arguments -/

/-- How a number is the argument of a head: as the low bits of the head, or behind it in one, two,
four or eight bytes that it fits. -/
inductive Argument : (minor n : Nat) → Bytes → Prop where
  | short {n : Nat} : n < 24 → Argument n n []
  | wide {n : Nat} (k : Nat) : k < 4 → n < 256 ^ 2 ^ k →
      Argument (24 + k) n (bigEndianOf (2 ^ k) n)

theorem Argument.minor_lt {minor n : Nat} {tail : Bytes} (h : Argument minor n tail) :
    minor < 28 := by
  cases h with
  | short hn => omega
  | wide k hk _ => omega

/-- An argument is of 64 bits. -/
theorem Argument.lt {minor n : Nat} {tail : Bytes} (h : Argument minor n tail) : n < 2 ^ 64 := by
  cases h with
  | short hn => omega
  | wide k hk hn =>
    have hwidth : 256 ^ 2 ^ k ≤ 256 ^ 2 ^ 3 :=
      Nat.pow_le_pow_right (by decide) (Nat.pow_le_pow_right (by decide) (by omega))
    exact Nat.lt_of_lt_of_le hn hwidth

/-- The argument behind a head, for one of the widths. -/
theorem argument?_wide {k : Nat} (hk : k < 4) (input : Bytes) : argument? (24 + k) input =
    (split? (2 ^ k) input).map fun (bytes, rest) => (some (bigEndian bytes), rest) := by
  have hcases : k = 0 ∨ k = 1 ∨ k = 2 ∨ k = 3 := by omega
  rcases hcases with rfl | rfl | rfl | rfl <;> rfl

/-- The bits above the widths are an open end or nothing. -/
theorem argument?_not_number {minor : Nat} (hshort : ¬minor < 24) (hwide : ¬minor < 28)
    (input : Bytes) : argument? minor input = if minor = 31 then some (none, input) else none := by
  rw [argument?, if_neg hshort, if_neg (by omega), if_neg (by omega), if_neg (by omega),
    if_neg (by omega)]

/-- A number is read as an argument exactly where it is one. -/
theorem argument?_eq_number_iff {minor n : Nat} {input rest : Bytes} :
    argument? minor input = some (some n, rest) ↔
      ∃ tail, Argument minor n tail ∧ input = tail ++ rest := by
  constructor
  · intro h
    by_cases hshort : minor < 24
    · rw [argument?, if_pos hshort] at h
      cases h
      exact ⟨[], .short hshort, rfl⟩
    by_cases hwide : minor < 28
    · obtain ⟨k, hk, rfl⟩ : ∃ k, k < 4 ∧ minor = 24 + k := ⟨minor - 24, by omega, by omega⟩
      rw [argument?_wide hk, Option.map_eq_some_iff] at h
      obtain ⟨⟨bytes, behind⟩, hsplit, h⟩ := h
      cases h
      obtain ⟨hlength, rfl⟩ := split?_eq_some_iff.1 hsplit
      -- the bytes are those of the number, whatever they are
      refine ⟨bytes, ?_, rfl⟩
      have hnumber := Argument.wide k hk (hlength ▸ bigEndian_lt bytes)
      rwa [← hlength, bigEndianOf_bigEndian] at hnumber
    · rw [argument?_not_number hshort hwide] at h
      split at h <;> cases h
  · rintro ⟨tail, harg, rfl⟩
    cases harg with
    | short hn => rw [argument?, if_pos hn, List.nil_append]
    | wide k hk hn =>
      have hspelled : bigEndian (bigEndianOf (2 ^ k) n) = n :=
        (bigEndian_bigEndianOf (2 ^ k) n).trans (Nat.mod_eq_of_lt hn)
      rw [argument?_wide hk, split?_append (bigEndianOf_length _ _), Option.map_some]
      show some (some (bigEndian (bigEndianOf (2 ^ k) n)), rest) = _
      rw [hspelled]

/-- An open end is read where the five bits tell it. -/
theorem argument?_eq_open_iff {minor : Nat} {input rest : Bytes} :
    argument? minor input = some (none, rest) ↔ minor = 31 ∧ input = rest := by
  constructor
  · intro h
    by_cases hshort : minor < 24
    · rw [argument?, if_pos hshort] at h
      cases h
    by_cases hwide : minor < 28
    · obtain ⟨k, hk, rfl⟩ : ∃ k, k < 4 ∧ minor = 24 + k := ⟨minor - 24, by omega, by omega⟩
      rw [argument?_wide hk, Option.map_eq_some_iff] at h
      obtain ⟨_, _, h⟩ := h
      cases h
    · rw [argument?_not_number hshort hwide] at h
      split at h
      · cases h
        exact ⟨‹_›, rfl⟩
      · cases h
  · rintro ⟨rfl, rfl⟩
    rfl

/-! ## Heads -/

/-- The head of a major type with an argument. -/
def Head.of? : (major : Nat) → (argument : Option Nat) → Option Head
  | 0, some n => some (.unsigned n)
  | 1, some n => some (.negative n)
  | 2, length => some (.byteString length)
  | 3, length => some (.textString length)
  | 4, length => some (.array length)
  | 5, length => some (.map length)
  | 6, some n => some (.tag n)
  | 7, none => some .stop
  | 7, some _ => some .simple
  | _, _ => none

theorem head?_cons (b : UInt8) (input : Bytes) : head? (b :: input) =
    (argument? (b.toNat % 32) input).bind fun (argument, rest) =>
      (Head.of? (b.toNat / 32) argument).map fun head => (head, rest) := by
  rw [head?]
  refine Option.bind_congr fun p _ => ?_
  obtain ⟨argument, rest⟩ := p
  generalize b.toNat / 32 = major
  dsimp only
  unfold Head.of?
  split <;> simp_all

theorem head?_eq_some_iff {input rest : Bytes} {h : Head} : head? input = some (h, rest) ↔
    ∃ b behind argument, input = b :: behind ∧
      argument? (b.toNat % 32) behind = some (argument, rest) ∧
        Head.of? (b.toNat / 32) argument = some h := by
  cases input with
  | nil => simp [head?]
  | cons b behind =>
    simp only [head?_cons, Option.bind_eq_some_iff, Option.map_eq_some_iff, Prod.exists,
      Prod.mk.injEq, List.cons.injEq]
    grind

/-- The bytes of a head with a number for its argument, in any width that the number fits. -/
def NumberHead (major n : Nat) (head : Bytes) : Prop :=
  ∃ minor tail, Argument minor n tail ∧ head = UInt8.ofNat (32 * major + minor) :: tail

/-- The byte of a head without a number. -/
def openHead (major : Nat) : UInt8 := UInt8.ofNat (32 * major + 31)

/-- The first byte of a head holds the major type and the five bits. -/
theorem toNat_ofNat_head {major minor : Nat} (hmajor : major < 8) (hminor : minor < 32) :
    (UInt8.ofNat (32 * major + minor)).toNat / 32 = major ∧
      (UInt8.ofNat (32 * major + minor)).toNat % 32 = minor := by
  rw [UInt8.toNat_ofNat_of_lt' (by show _ < 256; omega)]
  omega

section Reading

variable {major n : Nat} {head input rest : Bytes}

theorem NumberHead.ne_nil (h : NumberHead major n head) : head ≠ [] := by
  obtain ⟨minor, tail, -, rfl⟩ := h
  simp

/-- A head with a number is read where it is written, in any width. -/
theorem head?_eq_number_iff (make : Nat → Head) (hmajor : major < 8)
    (hmake : ∀ m argument, Head.of? m argument = some (make n) ↔ m = major ∧ argument = some n) :
    head? input = some (make n, rest) ↔ ∃ head, NumberHead major n head ∧ input = head ++ rest := by
  rw [head?_eq_some_iff]
  constructor
  · rintro ⟨b, behind, argument, rfl, hargument, hhead⟩
    obtain ⟨rfl, rfl⟩ := (hmake _ _).1 hhead
    obtain ⟨tail, harg, rfl⟩ := argument?_eq_number_iff.1 hargument
    have hbyte : UInt8.ofNat (32 * (b.toNat / 32) + b.toNat % 32) = b := by
      rw [Nat.div_add_mod, UInt8.ofNat_toNat]
    exact ⟨b :: tail, ⟨_, tail, harg, by rw [hbyte]⟩, rfl⟩
  · rintro ⟨_, ⟨minor, tail, harg, rfl⟩, rfl⟩
    have hminor : minor < 32 := Nat.lt_trans harg.minor_lt (by decide)
    obtain ⟨hdiv, hmod⟩ := toNat_ofNat_head hmajor hminor
    refine ⟨_, tail ++ rest, some n, rfl, ?_, ?_⟩
    · rw [hmod]
      exact argument?_eq_number_iff.2 ⟨tail, harg, rfl⟩
    · rw [hdiv]
      exact (hmake _ _).2 ⟨rfl, rfl⟩

/-- An open head is read where its byte stands. -/
theorem head?_eq_open_iff {made : Head} (hmajor : major < 8)
    (hmake : ∀ m argument, Head.of? m argument = some made ↔ m = major ∧ argument = none) :
    head? input = some (made, rest) ↔ input = openHead major :: rest := by
  rw [head?_eq_some_iff]
  constructor
  · rintro ⟨b, behind, argument, rfl, hargument, hhead⟩
    obtain ⟨rfl, rfl⟩ := (hmake _ _).1 hhead
    obtain ⟨hminor, rfl⟩ := argument?_eq_open_iff.1 hargument
    rw [openHead, ← hminor, Nat.div_add_mod, UInt8.ofNat_toNat]
  · rintro rfl
    obtain ⟨hdiv, hmod⟩ := toNat_ofNat_head hmajor (show 31 < 32 by decide)
    refine ⟨_, rest, none, rfl, ?_, ?_⟩
    · rw [openHead, hmod]
      rfl
    · rw [openHead, hdiv]
      exact (hmake _ _).2 ⟨rfl, rfl⟩

end Reading

/-- The head that is written for a number of 64 bits is one of its heads, and the shortest. -/
theorem numberHead_headBytes (major : Nat) {n : Nat} (hn : n < 2 ^ 64) :
    NumberHead major n (headBytes major n) := by
  have wide (k : Nat) (hk : k < 4) (hfits : n < 256 ^ 2 ^ k) : NumberHead major n
      (UInt8.ofNat (32 * major + (24 + k)) :: bigEndianOf (2 ^ k) n) :=
    ⟨24 + k, _, .wide k hk hfits, rfl⟩
  unfold headBytes
  split
  · exact ⟨n, [], .short ‹_›, rfl⟩
  split
  · exact wide 0 (by decide) ‹_›
  split
  · exact wide 1 (by decide) ‹_›
  split
  · exact wide 2 (by decide) ‹_›
  · exact wide 3 (by decide) hn

end CredentialCeremony.Cbor
