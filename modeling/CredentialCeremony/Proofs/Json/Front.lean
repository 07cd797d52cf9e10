import CredentialCeremony.Proofs.Json.Spelling
import CredentialCeremony.Proofs.Reading.Token

set_option autoImplicit false

/-!
# Values by their first characters

The first character of a value tells what kind of value it is, and with that what stands behind this
character (`Grammar.Value.front`).
-/

namespace CredentialCeremony.Grammar

variable {c : Char} {text inner rest : Bytes}

/-- What stands at the front of a text, told from its first character; `inner` is the text behind
that. -/
def Front (text inner rest : Bytes) (c : Char) : Prop :=
  match c with
  | '[' => Elements true inner rest
  | '\x7b' => Members true inner rest
  | '"' => Escaped inner rest
  | '-' => Numeral inner rest
  | 'n' => scanWord "ull".toList inner = .ok ((), rest)
  | 't' => scanWord "rue".toList inner = .ok ((), rest)
  | 'f' => scanWord "alse".toList inner = .ok ((), rest)
  | c => c.isDigit = true ∧ Numeral text rest

theorem front_iff_of_digit (hdigit : c.isDigit = true) :
    Front text inner rest c ↔ Numeral text rest := by
  unfold Front
  split <;> simp_all

/-- The first character tells what kind of value stands there. -/
theorem Value.front (h : Value text rest) (hnext : Next c text inner) :
    Front (unspaced text) inner rest c := by
  cases h with
  | array hopen h =>
    obtain ⟨rfl, rfl⟩ := hnext.unique hopen
    exact h
  | object hopen h =>
    obtain ⟨rfl, rfl⟩ := hnext.unique hopen
    exact h
  | scalar h =>
    have hword (full cs : String) (ch : Char) (hchars : full.toList = ch :: cs.toList)
        (h : Word full (unspaced text) rest) :
        c = ch ∧ scanWord cs.toList inner = .ok ((), rest) := by
      obtain ⟨behind, hnext', hscan⟩ := (word_unspaced_iff hchars).1 h
      obtain ⟨rfl, rfl⟩ := hnext.unique hnext'
      exact ⟨rfl, hscan⟩
    obtain ⟨b, hb, rfl⟩ := hnext
    generalize hfront : unspaced text = front at h hword ⊢
    cases h with
    | word hmem h =>
      simp only [List.mem_cons, List.not_mem_nil, or_false] at hmem
      rcases hmem with rfl | rfl | rfl
      · obtain ⟨hc, hscan⟩ := hword "null" "ull" 'n' rfl h
        rwa [hc]
      · obtain ⟨hc, hscan⟩ := hword "true" "rue" 't' rfl h
        rwa [hc]
      · obtain ⟨hc, hscan⟩ := hword "false" "alse" 'f' rfl h
        rwa [hc]
    | positive h =>
      obtain ⟨d, digits, hd, hdigit⟩ := exists_digit_of_numeral h
      obtain ⟨rfl, -⟩ := List.cons.inj (hb.symm.trans (hfront.trans hd))
      exact (front_iff_of_digit hdigit).2 h
    | negative hminus h =>
      obtain ⟨rfl, rfl⟩ := List.cons.inj (hb.symm.trans hfront)
      rwa [hminus]
    | string hmark h =>
      obtain ⟨rfl, rfl⟩ := List.cons.inj (hb.symm.trans hfront)
      rwa [hmark]

end CredentialCeremony.Grammar
