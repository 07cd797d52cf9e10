import CredentialCeremony.Proofs.Json.Front
import CredentialCeremony.Proofs.Json.Outline
import CredentialCeremony.Proofs.Json.Spans

set_option autoImplicit false

/-!
# Objects by their members

An object document is known by the names of its members and the texts of their values, whatever white
space stands between them (`Grammar.ObjectWith`). A name or a value may be illegible, that is, stand
for no text and no tree. Every object document has members in this sense
(`Grammar.exists_objectWith`), and whether it has given ones can be found out by passing over it.
-/

namespace CredentialCeremony.Grammar

open Reader

/-- Behind an opening mark stands the name, and `colon` behind its closing mark. An illegible name is
`none`. -/
def NameAt (name : Option String) (quoted colon : Bytes) : Prop :=
  Escaped quoted colon ∧ ∀ s, name = some s ↔ Chars quoted (utf8 s) colon

/-- At the front of the text stand members with these names and values, and the closing brace behind
them; a value is given by its text. -/
def MembersWith : List (Option String × Bytes) → (first : Bool) → (text rest : Bytes) → Prop
  | [], _, text, rest => Next '\x7d' text rest
  | (name, value) :: members, first, text, rest =>
    ∃ start quoted colon item behind, Lead first text start ∧ Next '"' start quoted ∧
      NameAt name quoted colon ∧ Next ':' colon item ∧ unspaced item = value ++ behind ∧
        Value value [] ∧ MembersWith members false behind rest

/-- The text is a document that holds an object with these members. -/
def ObjectWith (members : List (Option String × Bytes)) (text : Bytes) : Prop :=
  ∃ inner rest, Next '\x7b' text inner ∧ MembersWith members true inner rest ∧
    ∀ b ∈ rest, isSpace b = true

/-- The text of a member's value is one value. -/
theorem MembersWith.value {members : List (Option String × Bytes)} {first : Bool}
    {text rest : Bytes} (h : MembersWith members first text rest) :
    ∀ member ∈ members, Value member.2 [] := by
  induction members generalizing first text with
  | nil => exact nofun
  | cons member members ih =>
    obtain ⟨start, quoted, colon, item, behind, -, -, -, -, -, hvalue, hothers⟩ := h
    exact List.forall_mem_cons.2 ⟨hvalue, ih hothers⟩

theorem ObjectWith.value {members : List (Option String × Bytes)} {text : Bytes}
    (h : ObjectWith members text) : ∀ member ∈ members, Value member.2 [] := by
  obtain ⟨inner, rest, -, hmembers, -⟩ := h
  exact hmembers.value

/-- Nothing in the rest of an object goes on with a numeral. -/
theorem MembersWith.stops {members : List (Option String × Bytes)} {text rest : Bytes}
    (h : MembersWith members false text rest) : Stops text := by
  cases members with
  | nil => exact Next.stops h rfl
  | cons member members =>
    obtain ⟨start, quoted, colon, item, behind, hlead, -⟩ := h
    exact Next.stops hlead rfl

/-! ## Finding out -/

/-- The text behind the next character, if it is the one that is asked for. -/
def next? (c : Char) (text : Bytes) : Option Bytes :=
  match unspaced text with
  | [] => none
  | b :: rest => if Char.ofUInt8 b = c then some rest else none

/-- Where the next part of an array or object starts. -/
def lead? (first : Bool) (text : Bytes) : Option Bytes :=
  if first then some text else next? ',' text

/-- The name behind an opening mark, if it is legible. -/
def nameOf? (quoted : Bytes) : Option String :=
  match scanString quoted with
  | .ok (content, _) => ofUtf8? content
  | .error _ => none

/-- The text behind the closing mark of a name. -/
def behindName? (quoted : Bytes) : Option Bytes :=
  match passString quoted with
  | .ok (_, colon) => some colon
  | .error _ => none

/-- The text behind a value of the grammar. -/
def behindValue? (text : Bytes) : Option Bytes :=
  match skip ⟨text, []⟩ with
  | .ok _ c => some c.rest
  | .error _ _ => none

theorem next?_eq_some_iff {c : Char} {text rest : Bytes} :
    next? c text = some rest ↔ Next c text rest := by
  rw [next?, Next]
  cases unspaced text with
  | nil => simp
  | cons b t => simp [and_comm, eq_comm]

theorem lead?_eq_some_iff {first : Bool} {text start : Bytes} :
    lead? first text = some start ↔ Lead first text start := by
  cases first with
  | true =>
    rw [lead?, Lead, if_pos rfl, if_pos rfl, Option.some.injEq]
    exact eq_comm
  | false => exact next?_eq_some_iff

theorem behindName?_eq_some_iff {quoted colon : Bytes} :
    behindName? quoted = some colon ↔ Escaped quoted colon := by
  rw [behindName?]
  cases hpass : passString quoted with
  | error e =>
    refine iff_of_false nofun fun h => ?_
    cases hpass.symm.trans (passString_eq_ok_iff (u := ()).2 h)
  | ok passed =>
    rw [← passString_eq_ok_iff (u := passed.1), hpass, Option.some.injEq, Except.ok.injEq,
      Prod.ext_iff]
    exact (and_iff_right rfl).symm

/-- A legible name ends where the grammar says. -/
theorem nameOf?_eq_some_iff {quoted colon : Bytes} (h : Escaped quoted colon) {name : String} :
    nameOf? quoted = some name ↔ Chars quoted (utf8 name) colon := by
  constructor
  · rw [nameOf?]
    intro hname
    cases hscan : scanString quoted with
    | error e =>
      rw [hscan] at hname
      cases hname
    | ok taken =>
      obtain ⟨content, rest⟩ := taken
      rw [hscan] at hname
      have hchars := scanString_eq_ok_iff.1 hscan
      have hrest := behindName?_eq_some_iff.2 hchars.escaped
      rw [behindName?_eq_some_iff.2 h] at hrest
      obtain rfl := Option.some.inj hrest
      obtain rfl := ofUtf8?_eq_some_iff.1 hname
      exact hchars
  · intro hchars
    rw [nameOf?, scanString_eq_ok_iff.2 hchars]
    exact ofUtf8?_utf8 name

theorem nameAt_iff {name : Option String} {quoted colon : Bytes} :
    NameAt name quoted colon ↔ behindName? quoted = some colon ∧ nameOf? quoted = name := by
  rw [NameAt, behindName?_eq_some_iff, and_congr_right_iff]
  intro hescaped
  constructor
  · intro h
    exact Option.ext fun s => (nameOf?_eq_some_iff hescaped).trans (h s).symm
  · rintro rfl s
    exact nameOf?_eq_some_iff hescaped

theorem behindValue?_eq_some_iff {text rest : Bytes} :
    behindValue? text = some rest ↔ Value text rest := by
  rw [behindValue?]
  cases hskip : skip ⟨text, []⟩ with
  | error e c =>
    refine iff_of_false nofun fun h => ?_
    have hpassed : skip ⟨text, []⟩ = .ok () ⟨rest, []⟩ := skip_eq_ok_iff.2 ⟨h, rfl⟩
    cases hskip.symm.trans hpassed
  | ok u c =>
    rw [Option.some.injEq]
    exact ⟨fun h => h ▸ value_of_skip hskip, fun h => (value_of_skip hskip).unique h⟩

/-- Whatever stands in an object, it is members with some names and values. -/
theorem exists_membersWith {first : Bool} {text rest : Bytes} (h : Members first text rest) :
    ∃ members, MembersWith members first text rest := by
  induction hlength : text.length using Nat.strongRecOn generalizing first text with
  | ind n ih =>
    cases h with
    | close hbrace => exact ⟨[], hbrace⟩
    | @member _ _ start quoted colon item behind _ hlead hmark hescaped hcolon hitem hothers =>
      have h₁ := hlead.length_le
      have h₂ := hmark.length_lt
      have h₃ := hescaped.length_lt
      have h₄ := hcolon.length_lt
      have h₅ := hitem.length_lt
      obtain ⟨members, hmembers⟩ := ih behind.length (by omega) hothers rfl
      obtain ⟨value, htext, hvalue⟩ := (value_unspaced_iff.2 hitem).exists_piece
      have hname : NameAt (nameOf? quoted) quoted colon :=
        nameAt_iff.2 ⟨behindName?_eq_some_iff.2 hescaped, rfl⟩
      exact ⟨(nameOf? quoted, value) :: members, start, quoted, colon, item, behind, hlead, hmark,
        hname, hcolon, htext, hvalue, hmembers⟩

/-- Every document that is an object is one with some members. -/
theorem exists_objectWith {text inner : Bytes} (h : Document text)
    (hopen : Next '\x7b' text inner) : ∃ members, ObjectWith members text := by
  obtain ⟨rest, hvalue, hspaces⟩ := h
  have hinner : Members true inner rest := hvalue.front hopen
  obtain ⟨members, hmembers⟩ := exists_membersWith hinner
  exact ⟨members, inner, rest, hopen, hmembers, hspaces⟩

/-- Whether a text holds given members is found out along the text. -/
theorem exists_membersWith_cons_iff {p : Bytes → Prop} {name : Option String} {value : Bytes}
    {members : List (Option String × Bytes)} {first : Bool} {text : Bytes} :
    (∃ rest, MembersWith ((name, value) :: members) first text rest ∧ p rest) ↔
      ∃ start ∈ lead? first text, ∃ quoted ∈ next? '"' start, ∃ colon ∈ behindName? quoted,
        nameOf? quoted = name ∧ ∃ item ∈ next? ':' colon,
          value <+: unspaced item ∧ behindValue? value = some [] ∧
            ∃ rest, MembersWith members false ((unspaced item).drop value.length) rest ∧ p rest := by
  simp only [Option.mem_def, lead?_eq_some_iff, next?_eq_some_iff]
  constructor
  · rintro ⟨rest, ⟨start, quoted, colon, item, behind, hlead, hmark, hname, hcolon, hitem, hvalue, h⟩,
      hrest⟩
    obtain ⟨hbehind, hname⟩ := nameAt_iff.1 hname
    refine ⟨start, hlead, quoted, hmark, colon, hbehind, hname, item, hcolon, ⟨behind, hitem.symm⟩,
      behindValue?_eq_some_iff.2 hvalue, rest, ?_, hrest⟩
    rwa [hitem, List.drop_left]
  · rintro ⟨start, hlead, quoted, hmark, colon, hbehind, hname, item, hcolon, ⟨behind, hitem⟩, hvalue,
      rest, h, hrest⟩
    rw [← hitem, List.drop_left] at h
    exact ⟨rest, ⟨start, quoted, colon, item, behind, hlead, hmark, nameAt_iff.2 ⟨hbehind, hname⟩,
      hcolon, hitem.symm, behindValue?_eq_some_iff.1 hvalue, h⟩, hrest⟩

instance decidableMembersWith (p : Bytes → Prop) [DecidablePred p] :
    (members : List (Option String × Bytes)) → (first : Bool) → (text : Bytes) →
      Decidable (∃ rest, MembersWith members first text rest ∧ p rest)
  | [], _, text =>
    decidable_of_iff (∃ rest ∈ next? '\x7d' text, p rest) (by
      simp only [Option.mem_def, next?_eq_some_iff]
      exact Iff.rfl)
  | (_, _) :: members, _, _ =>
    have (text : Bytes) := decidableMembersWith p members false text
    decidable_of_iff' _ exists_membersWith_cons_iff

instance (members : List (Option String × Bytes)) (text : Bytes) :
    Decidable (ObjectWith members text) :=
  -- the bytes that are left are looked at, not all that there are
  have (rest : Bytes) : Decidable (∀ b ∈ rest, isSpace b = true) := List.decidableBAll _ rest
  decidable_of_iff (∃ inner ∈ next? '\x7b' text, ∃ rest, MembersWith members true inner rest ∧
    ∀ b ∈ rest, isSpace b = true) (by
      simp only [Option.mem_def, next?_eq_some_iff, ObjectWith, exists_and_left])

end CredentialCeremony.Grammar
