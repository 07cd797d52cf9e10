import CredentialCeremony.Binary.Base64
import CredentialCeremony.Proofs.Traversal

set_option autoImplicit false

/-!
# Bytes read back from base 64

The characters that are written for bytes stand for the six-bit groups of the bytes, in the alphabet
they are written in, and none of them is padding.

Main statement: what is written for bytes is read as these bytes (`decodeUrl?_encode`).
-/

namespace CredentialCeremony

namespace Base64

/-- A six-bit group is less than 64. -/
theorem lt_of_mem_sextetsOf {bytes : Bytes} {n : Nat} (h : n ∈ sextetsOf bytes) : n < 64 := by
  fun_induction sextetsOf bytes with
  | case1 => exact absurd h List.not_mem_nil
  | case2 a =>
    have ha := a.toNat_lt
    simp only [List.mem_cons, List.not_mem_nil, or_false] at h
    rcases h with rfl | rfl <;> omega
  | case3 a b =>
    have ha := a.toNat_lt
    have hb := b.toNat_lt
    simp only [List.mem_cons, List.not_mem_nil, or_false] at h
    rcases h with rfl | rfl | rfl <;> omega
  | case4 a b c rest ih =>
    have ha := a.toNat_lt
    have hb := b.toNat_lt
    have hc := c.toNat_lt
    simp only [List.mem_cons] at h
    rcases h with rfl | rfl | rfl | rfl | h
    · omega
    · omega
    · omega
    · omega
    · exact ih h

/-- The character of a group stands for the group. -/
theorem Alphabet.value?_symbol (a : Alphabet) : ∀ n < 64, a.value? (a.symbol n) = some n := by
  cases a <;> decide

/-- The character of a group is not padding. -/
theorem Alphabet.symbol_ne_padding (a : Alphabet) : ∀ n < 64, a.symbol n ≠ '=' := by
  cases a <;> decide

theorem unpadded_of_no_padding {text : List Char} (h : ∀ c ∈ text, c ≠ '=') :
    unpadded text = text := by
  have hfirst : text.reverse.dropWhile (· == '=') = text.reverse := by
    cases hreverse : text.reverse with
    | nil => rfl
    | cons c rest =>
      have hc : c ≠ '=' := h c (List.mem_reverse.1 (hreverse ▸ List.mem_cons_self))
      have hne : (c == '=') = false := beq_eq_false_iff_ne.2 hc
      rw [List.dropWhile_cons, hne]
      rfl
  rw [unpadded, hfirst, List.reverse_reverse]

/-- What is written for bytes in an alphabet is read in it as these bytes, strictly as well as
loosely. -/
theorem decode?_symbols (a : Alphabet) (strict : Bool) (bytes : Bytes) :
    decode? a strict (String.ofList ((sextetsOf bytes).map a.symbol)) = some bytes := by
  have hgroups : ∀ n ∈ sextetsOf bytes, n < 64 := fun n hn => lt_of_mem_sextetsOf hn
  have hpadding : ∀ c ∈ (sextetsOf bytes).map a.symbol, c ≠ '=' := by
    intro c hc
    obtain ⟨n, hn, rfl⟩ := List.mem_map.1 hc
    exact a.symbol_ne_padding n (hgroups n hn)
  have hvalues : ((sextetsOf bytes).map a.symbol).mapM a.value? = some (sextetsOf bytes) :=
    mapM_map_eq_some fun n hn => a.value?_symbol n (hgroups n hn)
  rw [decode?, String.toList_ofList, unpadded_of_no_padding hpadding, hvalues]
  exact bytesOf_sextetsOf strict bytes

theorem decodeUrl?_encode (bytes : Bytes) : decodeUrl? (encode bytes) = some bytes :=
  decode?_symbols .url false bytes

/-! ## Texts that are read loosely -/

/-- Whether a character belongs to the URL alphabet. -/
def isUrlSymbol (c : Char) : Bool := c.isAlphanum || c == '-' || c == '_'

/-- A text in the URL alphabet, padded in any way, whose last group is not a single character. -/
def Loose (text : String) : Prop :=
  (∀ c ∈ unpadded text.toList, isUrlSymbol c = true) ∧ (unpadded text.toList).length % 4 ≠ 1

instance (text : String) : Decidable (Loose text) := inferInstanceAs (Decidable (_ ∧ _))

theorem isSome_value?_iff {c : Char} :
    (Alphabet.url.value? c).isSome = true ↔ isUrlSymbol c = true := by
  -- one case for each branch of the alphabet
  have hsymbol : isUrlSymbol c = (c.isUpper || c.isLower || c.isDigit || c == '-' || c == '_') := rfl
  rw [hsymbol]
  simp only [Alphabet.value?, Alphabet.lastTwo]
  by_cases hupper : c.isUpper = true
  · simp [hupper]
  by_cases hlower : c.isLower = true
  · simp [hupper, hlower]
  by_cases hdigit : c.isDigit = true
  · simp [hupper, hlower, hdigit]
  by_cases hdash : c = '-'
  · simp [hdash]
  by_cases hline : c = '_'
  · simp [hline]
  · simp [hupper, hlower, hdigit, hdash, hline]

/-- Six-bit groups hold bytes unless one is left over. -/
theorem isSome_bytesOf_iff {groups : List Nat} :
    (bytesOf false groups).isSome = true ↔ groups.length % 4 ≠ 1 := by
  fun_induction bytesOf false groups with
  | case1 => simp
  | case2 => simp
  | case3 => simp_all
  | case4 => simp
  | case5 => simp_all
  | case6 => simp
  | case7 p q r s rest ih =>
    rw [Option.isSome_map, ih]
    simp only [List.length_cons]
    omega

/-- A text is read from the URL alphabet exactly if it is loose. -/
theorem isSome_decodeUrl?_iff {text : String} :
    (decodeUrl? text).isSome = true ↔ Loose text := by
  rw [decodeUrl?, decode?, Loose]
  have hsymbols : ((unpadded text.toList).mapM Alphabet.url.value?).isSome = true ↔
      ∀ c ∈ unpadded text.toList, isUrlSymbol c = true := by
    simp only [isSome_mapM_iff, isSome_value?_iff]
  cases hgroups : (unpadded text.toList).mapM Alphabet.url.value? with
  | none =>
    rw [hgroups] at hsymbols
    exact iff_of_false (by simp) fun h => absurd (hsymbols.2 h.1) (by simp)
  | some groups =>
    rw [hgroups] at hsymbols
    rw [Option.bind_some, isSome_bytesOf_iff, length_of_mapM_eq_some hgroups]
    exact (and_iff_right (hsymbols.1 rfl)).symm

end Base64

/-- A binary value is read back from what is written for it. -/
theorem Bytes.ofText?_encode (bytes : Bytes) : Bytes.ofText? (Base64.encode bytes) = some bytes := by
  rw [Bytes.ofText?, Base64.decodeUrl?_encode]
  rfl

end CredentialCeremony
