import CredentialCeremony.Form
import CredentialCeremony.Proofs.Text.Pieces
import CredentialCeremony.Proofs.Traversal

set_option autoImplicit false

/-!
# Form bodies read back

A name or value as it stands in a form body holds neither of the separators
(`Form.not_separator_of_mem_encodePart`), so a body is cut into the pairs that it was joined of,
whatever texts these are: the cut at each `&` gives every pair, and the first `=` of a pair ends its
name.

Main statement: a form body is read back as the names and values that it was made of, empty ones
among them (`Form.decode_encode`).
-/

namespace CredentialCeremony

namespace Form

/-- No separator of a form body stands in an encoded byte. -/
theorem not_separator_of_mem_encodeByte {b : UInt8} {c : Char} (h : c ∈ encodeByte b) :
    c ≠ '&' ∧ c ≠ '=' := by
  have hdigits : ∀ n < 16, Text.upperHex n ≠ '&' ∧ Text.upperHex n ≠ '=' := by decide
  have hb := b.toNat_lt
  unfold encodeByte at h
  split at h
  · rename_i hplain
    rw [List.mem_singleton] at h
    subst h
    obtain ⟨-, -, hand, hequals, -⟩ := plain_byte hplain
    exact ⟨hand, hequals⟩
  · split at h
    · rw [List.mem_singleton] at h
      subst h
      decide
    -- a percent sign and two digits
    · simp only [Percent.encodeByte, List.mem_cons, List.not_mem_nil, or_false] at h
      rcases h with rfl | rfl | rfl
      · decide
      · exact hdigits _ (by omega)
      · exact hdigits _ (by omega)

theorem not_separator_of_mem_encodePart {s : String} {c : Char} (h : c ∈ encodePart s) :
    c ≠ '&' ∧ c ≠ '=' := by
  obtain ⟨b, -, hc⟩ := List.mem_flatMap.1 h
  exact not_separator_of_mem_encodeByte hc

/-- A pair is split where its name ends. -/
theorem decodePair_encodePair (pair : String × String) :
    decodePair (encodePair pair) = some pair := by
  have hname : ∀ c ∈ encodePart pair.1, (c != '=') = true := by
    intro c hc
    exact bne_iff_ne.2 (not_separator_of_mem_encodePart hc).2
  have hfront : (encodePair pair).takeWhile (· != '=') = encodePart pair.1 := by
    rw [encodePair, List.takeWhile_append_of_pos hname, List.takeWhile_cons_of_neg (by decide),
      List.append_nil]
  have hback : (encodePair pair).dropWhile (· != '=') = '=' :: encodePart pair.2 := by
    rw [encodePair, List.dropWhile_append_of_pos hname, List.dropWhile_cons_of_neg (by decide)]
  rw [decodePair, hfront, hback, List.drop_one, List.tail_cons, decodePart_encodePart,
    decodePart_encodePart]
  rfl

/-- A pair holds no separator of pairs. -/
theorem not_and_of_mem_encodePair {pair : String × String} : '&' ∉ encodePair pair := by
  intro h
  rcases List.mem_append.1 h with hname | hrest
  · exact (not_separator_of_mem_encodePart hname).1 rfl
  · rcases List.mem_cons.1 hrest with hequals | hvalue
    · exact absurd hequals (by decide)
    · exact (not_separator_of_mem_encodePart hvalue).1 rfl

/-- A form body is cut into the pairs that it was joined of. -/
theorem cut_encode {pairs : List (String × String)} (hne : pairs ≠ []) :
    Text.cut (· == '&') (encode pairs).toList = pairs.map encodePair := by
  have hpieces : ∀ piece ∈ pairs.map encodePair, '&' ∉ piece := by
    intro piece hpiece
    obtain ⟨pair, -, rfl⟩ := List.mem_map.1 hpiece
    exact not_and_of_mem_encodePair
  rw [encode, String.toList_ofList]
  exact Text.cut_intercalate (by simpa using hne) hpieces

/-- The pieces of a form body are read as the pairs, one for each piece. -/
theorem mapM_decodePair_cut_encode {pairs : List (String × String)} (hne : pairs ≠ []) :
    (Text.cut (· == '&') (encode pairs).toList).mapM decodePair = some pairs := by
  rw [cut_encode hne]
  exact mapM_map_eq_some fun pair _ => decodePair_encodePair pair

/-- A form body is read back as the names and values that it was made of. -/
theorem decode_encode (pairs : List (String × String)) : decode (encode pairs) = some pairs := by
  by_cases hne : pairs = []
  · subst hne
    rfl
  -- no pair is empty, since there is an equals sign in it
  have hkept : ∀ piece ∈ pairs.map encodePair, (!piece.isEmpty) = true := by
    intro piece hpiece
    obtain ⟨pair, -, rfl⟩ := List.mem_map.1 hpiece
    cases hpair : encodePair pair with
    | nil => exact absurd hpair (List.append_ne_nil_of_right_ne_nil _ (List.cons_ne_nil _ _))
    | cons c rest => rfl
  rw [decode, cut_encode hne, List.filter_eq_self.2 hkept]
  exact mapM_map_eq_some fun pair _ => decodePair_encodePair pair

end Form
end CredentialCeremony
