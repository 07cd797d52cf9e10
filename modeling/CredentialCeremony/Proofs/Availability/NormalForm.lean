import CredentialCeremony.Proofs.Availability.VersionText
import CredentialCeremony.Proofs.Number.Digits

set_option autoImplicit false

/-!
# Versions by their pieces

The core of a text is cut at every dot. The text is that of a version exactly if every piece is a
segment, and the pieces then tell the segments one by one. Of all texts of a version just one has no
blanks, no plus signs and no needless zeros. This is the text that is written, so it is written again
when it has been read, and versions with different segments are written differently even if they are
equal under the order.

Main statement: `spelling_laws`.
-/

namespace CredentialCeremony.Version

variable {core piece : List Char} {pieces : List (List Char)} {segments : List UInt64}
  {s : String} {v w : Version} {n : UInt64}

/-! ## Pieces -/

/-- An optional plus sign and one or more digits that spell a number below 2 ^ 64. -/
def IsSegment (piece : List Char) : Prop :=
  ∃ digits, (piece = digits ∨ piece = '+' :: digits) ∧ digits ≠ [] ∧
    (∀ c ∈ digits, c.isDigit = true) ∧ valueOf digits ≤ 18446744073709551615

theorem isSegment_iff : IsSegment piece ↔ ∃ n, Signed piece n := by
  constructor
  · rintro ⟨digits, hpiece, hne, hdigits, hle⟩
    have hvalue : (UInt64.ofNat (valueOf digits)).toNat = valueOf digits :=
      UInt64.toNat_ofNat_of_lt' (Nat.lt_succ_of_le hle)
    exact ⟨_, digits, hpiece, hne, hdigits, hvalue.symm⟩
  · rintro ⟨n, digits, hpiece, hne, hdigits, hvalue⟩
    refine ⟨digits, hpiece, hne, hdigits, ?_⟩
    rw [hvalue]
    exact Nat.le_of_lt_succ n.toNat_lt

theorem not_isSegment_nil : ¬ IsSegment [] := by
  intro h
  obtain ⟨n, hsigned⟩ := isSegment_iff.1 h
  exact hsigned.ne_nil rfl

/-- Pieces spell a list of numbers exactly if each of them is a segment. -/
theorem exists_forall₂_signed_iff :
    (∃ segments, List.Forall₂ Signed pieces segments) ↔ ∀ piece ∈ pieces, IsSegment piece := by
  constructor
  · rintro ⟨segments, h⟩ piece hpiece
    exact isSegment_iff.2 (exists_signed_of_mem h hpiece)
  · intro h
    have hread : ∀ piece ∈ pieces, (segment? piece).isSome = true := by
      intro piece hpiece
      obtain ⟨n, hsigned⟩ := isSegment_iff.1 (h piece hpiece)
      exact Option.isSome_of_eq_some (segment?_eq_some_iff.2 hsigned)
    obtain ⟨segments, hsegments⟩ := Option.isSome_iff_exists.1 (isSome_mapM_iff.2 hread)
    refine ⟨segments, (mapM_eq_some_iff.1 hsegments).imp ?_⟩
    exact fun piece n hpiece => segment?_eq_some_iff.1 hpiece

/-! ## Reading -/

theorem parse_eq_ok_iff (hcore : Text.IsCore core s.toList) :
    parse s = .ok v ↔ Spelled core v := by
  rw [← ofText?_eq_some_iff_of_core hcore, parse]
  cases ofText? s.toList with
  | none =>
    apply iff_of_false
    · rintro ⟨⟩
    · rintro ⟨⟩
  | some w => rw [Except.ok.injEq, Option.some_inj]

/-- The segments of a version are read off the pieces. -/
theorem parse_eq_ok_iff_of_split (hcore : Text.IsCore core s.toList)
    (hsplit : Text.IsSplit '.' pieces core) :
    parse s = .ok v ↔ List.Forall₂ Signed pieces v.segments :=
  (parse_eq_ok_iff hcore).trans (spelled_iff_of_split hsplit)

theorem exists_parse_eq_ok_iff (hcore : Text.IsCore core s.toList)
    (hsplit : Text.IsSplit '.' pieces core) :
    (∃ v, parse s = .ok v) ↔ ∀ piece ∈ pieces, IsSegment piece := by
  rw [← exists_forall₂_signed_iff]
  constructor
  · rintro ⟨v, hv⟩
    exact ⟨v.segments, (parse_eq_ok_iff_of_split hcore hsplit).1 hv⟩
  · rintro ⟨segments, h⟩
    exact ⟨⟨segments⟩, (parse_eq_ok_iff_of_split hcore hsplit).2 h⟩

/-- A text that is not that of a version is quoted with the blanks around it. -/
theorem parse_eq_error (h : ¬ ∃ v, parse s = .ok v) : parse s = .error (.notVersion s) := by
  cases hread : ofText? s.toList with
  | none => rw [parse, hread]
  | some v =>
    apply absurd _ h
    exact ⟨v, by rw [parse, hread]⟩

theorem segments_ne_nil_of_parse (h : parse s = .ok v) : v.segments ≠ [] :=
  ((parse_eq_ok_iff (Text.isCore_trim _)).1 h).segments_ne_nil

/-- What is written for a version with a segment is read back. -/
theorem parse_text (hne : v.segments ≠ []) : parse v.text = .ok v := by
  have hspelled := spelled_text hne
  exact (parse_eq_ok_iff (Text.isCore_of_no_blank hspelled.isBlank_eq_false)).2 hspelled

/-! ## Writing -/

/-- A numeral without a plus sign, in which a zero in front stands alone. -/
def Plain (piece : List Char) (n : UInt64) : Prop :=
  Numeral piece n ∧ ∀ behind, piece = '0' :: behind → behind = []

/-- A number has one plain numeral, which is written for it. -/
theorem plain_iff : Plain piece n ↔ piece = Nat.toDigits 10 n.toNat := by
  constructor
  · rintro ⟨hnumeral, hfront⟩
    rw [← hnumeral.value, ← ofDigitChars_eq_valueOf]
    exact (toDigits_ofDigitChars hnumeral.ne_nil hnumeral.isDigit hfront).symm
  · rintro rfl
    exact ⟨numeral_toDigits n, fun behind => eq_nil_of_toDigits_eq_zero_cons⟩

theorem forall₂_plain_iff :
    List.Forall₂ Plain pieces segments ↔ pieces = segments.map fun n => Nat.toDigits 10 n.toNat := by
  have hequal : List.Forall₂ Eq pieces (segments.map fun n => Nat.toDigits 10 n.toNat) ↔
      pieces = segments.map fun n => Nat.toDigits 10 n.toNat := by
    rw [List.forall₂_eq_eq_eq]
  rw [← hequal, List.forall₂_map_right_iff]
  constructor
  · exact fun h => h.imp fun piece n => plain_iff.1
  · exact fun h => h.imp fun piece n => plain_iff.2

theorem isSplit_text (hne : v.segments ≠ []) :
    Text.IsSplit '.' (v.segments.map fun n => Nat.toDigits 10 n.toNat) v.text.toList := by
  refine ⟨mt List.map_eq_nil_iff.1 hne, toList_text v, ?_⟩
  rw [List.forall_mem_map]
  exact fun n _ => (numeral_toDigits n).dot_not_mem

/-- Of all texts, the one whose pieces are the plain numerals of the segments is written. -/
theorem eq_text_iff_of_split (hne : v.segments ≠ []) (hsplit : Text.IsSplit '.' pieces s.toList) :
    s = v.text ↔ List.Forall₂ Plain pieces v.segments := by
  rw [forall₂_plain_iff]
  constructor
  · rintro rfl
    rw [← Text.isSplit_iff.1 hsplit]
    exact Text.isSplit_iff.1 (isSplit_text hne)
  · intro h
    rw [← String.toList_inj, hsplit.joined, toList_text, h]

/-- The text that is written tells the segments. -/
theorem text_eq_text_iff (hv : v.segments ≠ []) (hw : w.segments ≠ []) :
    v.text = w.text ↔ v.segments = w.segments := by
  constructor
  · intro h
    have hread := parse_text hv
    rw [h, parse_text hw] at hread
    cases hread
    rfl
  · intro h
    rw [text, text, h]

/-! ## The laws together -/

/-- A text is that of a version exactly if the pieces between the dots, the blanks around the text
aside, are segments, and the version has the numbers that they spell, one at least. Any other text
is quoted with these blanks. What is written for a version with a segment is read back as it was;
the text that is written is the one whose pieces are plain numerals. So what is written for a version
that was read is not changed when it is read and written again, and two such versions are written
alike exactly if they have the same segments. -/
theorem spelling_laws :
    (∀ s : String, ∃ core pieces, Text.IsCore core s.toList ∧ Text.IsSplit '.' pieces core ∧
      ((∃ v, parse s = .ok v) ↔ ∀ piece ∈ pieces, IsSegment piece) ∧
      (∀ v, parse s = .ok v ↔ List.Forall₂ Signed pieces v.segments) ∧
      (∀ v, parse s = .ok v → v.segments ≠ []) ∧
      ((∃ piece ∈ pieces, ¬ IsSegment piece) → parse s = .error (.notVersion s) ∧
        (ReadError.notVersion s).message? =
          some ("\x60" ++ s ++ "\x60" ++ " is not a dotted version"))) ∧
    (∀ v : Version, v.segments ≠ [] → parse v.text = .ok v) ∧
    (∀ (v : Version) (s : String) pieces, v.segments ≠ [] → Text.IsSplit '.' pieces s.toList →
      (s = v.text ↔ List.Forall₂ Plain pieces v.segments)) ∧
    (∀ s v, parse s = .ok v → (parse v.text).map text = .ok v.text) ∧
    ∀ s t v w, parse s = .ok v → parse t = .ok w →
      (v.text = w.text ↔ v.segments = w.segments) := by
  refine ⟨?_, fun v => parse_text, fun v s pieces => eq_text_iff_of_split, ?_, ?_⟩
  · intro s
    have hcore := Text.isCore_trim s.toList
    have hsplit := Text.isSplit_cut '.' (Text.trim s.toList)
    have hsome := exists_parse_eq_ok_iff hcore hsplit
    refine ⟨_, _, hcore, hsplit, hsome, fun v => parse_eq_ok_iff_of_split hcore hsplit,
      fun v => segments_ne_nil_of_parse, ?_⟩
    rintro ⟨piece, hpiece, hnot⟩
    exact ⟨parse_eq_error fun hread => hnot (hsome.1 hread piece hpiece), rfl⟩
  · intro s v h
    rw [parse_text (segments_ne_nil_of_parse h)]
    rfl
  · intro s t v w hv hw
    exact text_eq_text_iff (segments_ne_nil_of_parse hv) (segments_ne_nil_of_parse hw)

/-- Blanks, a plus sign and zeros in front are read and not written. A zero at the end is written,
though it makes no difference to the order. Between two dots in a row there is an empty piece. -/
theorem spelling_laws_of_signs :
    parse "\u2003+0118.01.18446744073709551615 " = .ok ⟨[118, 1, 18446744073709551615]⟩ ∧
      "118.1.18446744073709551615" = text ⟨[118, 1, 18446744073709551615]⟩ ∧
      (parse (text ⟨[118, 1, 18446744073709551615]⟩)).map text =
        .ok (text ⟨[118, 1, 18446744073709551615]⟩) ∧
      parse (text ⟨[118, 1]⟩) = .ok ⟨[118, 1]⟩ ∧
      same ⟨[118, 1]⟩ ⟨[118, 1, 0]⟩ = true ∧ text ⟨[118, 1]⟩ ≠ text ⟨[118, 1, 0]⟩ ∧
      parse " 118..1" = .error (.notVersion " 118..1") := by
  obtain ⟨htexts, hwritten, hplain, hagain, hsame⟩ := spelling_laws
  have hread : parse "\u2003+0118.01.18446744073709551615 " =
      .ok ⟨[118, 1, 18446744073709551615]⟩ := by decide +kernel
  have hnumerals := (hplain ⟨[118, 1, 18446744073709551615]⟩ "118.1.18446744073709551615" _
    (by decide) (Text.isSplit_cut '.' _)).2 (forall₂_plain_iff.2 (by decide +kernel))
  have hzero := hsame "+118.01" "118.1.0" ⟨[118, 1]⟩ ⟨[118, 1, 0]⟩ (by decide +kernel)
    (by decide +kernel)
  obtain ⟨core, pieces, hcore, hsplit, -, -, -, hquoted⟩ := htexts " 118..1"
  have hempty : [] ∈ pieces := by
    rw [← Text.isSplit_iff.1 hsplit, ← Text.isCore_iff.1 hcore]
    decide +kernel
  exact ⟨hread, hnumerals, hagain _ _ hread, hwritten _ (by decide), by decide,
    fun h => absurd (hzero.1 h) (by decide), (hquoted ⟨[], hempty, not_isSegment_nil⟩).1⟩

end CredentialCeremony.Version
