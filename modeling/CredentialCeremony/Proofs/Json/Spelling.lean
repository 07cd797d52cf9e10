import CredentialCeremony.Proofs.Reading.Token

set_option autoImplicit false

/-!
# Texts that spell a value

`Json.Spelled` says that a value stands at the front of a text and what stands behind it. It is
stricter than the grammar: the escapes of a string have to stand for characters and the numbers have
to be in range, since only then is there a value to speak of.

Main statements: a text that spells a value is one of the grammar (`Json.Spelled.grammar`), and a
value whose objects repeat no name is its own resolution (`Json.resolve_of_distinct`).
-/

namespace CredentialCeremony

open Grammar

namespace Json

mutual

/-- The value stands at the front of the text, maybe behind white space, and `rest` behind it. -/
def Spelled : Json → (text rest : Bytes) → Prop
  | .null, text, rest => Word "null" (unspaced text) rest
  | .bool true, text, rest => Word "true" (unspaced text) rest
  | .bool false, text, rest => Word "false" (unspaced text) rest
  | .number n, text, rest =>
    scanNumeral false (unspaced text) = .ok (n, rest) ∨
      ∃ digits, Next '-' text digits ∧ scanNumeral true digits = .ok (n, rest)
  | .string s, text, rest => ∃ quoted, Next '"' text quoted ∧ Chars quoted (utf8 s) rest
  | .array items, text, rest => ∃ inner, Next '[' text inner ∧ ItemsSpelled items true inner rest
  | .object members, text, rest =>
    ∃ inner, Next '\x7b' text inner ∧ MembersSpelled members true inner rest

/-- The values stand at the front of the text as the next elements of an array, which ends behind
them; `first` tells that no element has come before. -/
def ItemsSpelled : List Json → (first : Bool) → (text rest : Bytes) → Prop
  | [], _, text, rest => Next ']' text rest
  | json :: items, first, text, rest =>
    ∃ item behind, Lead first text item ∧ Spelled json item behind ∧
      ItemsSpelled items false behind rest

/-- The members stand at the front of the text as the next members of an object, which ends behind
them; `first` tells that no member has come before. -/
def MembersSpelled : List (String × Json) → (first : Bool) → (text rest : Bytes) → Prop
  | [], _, text, rest => Next '\x7d' text rest
  | (name, json) :: members, first, text, rest =>
    ∃ start quoted colon item behind, Lead first text start ∧ Next '"' start quoted ∧
      Chars quoted (utf8 name) colon ∧ Next ':' colon item ∧ Spelled json item behind ∧
        MembersSpelled members false behind rest

end

mutual

/-- How many arrays and objects stand inside one another. -/
def depth : Json → Nat
  | .array items => itemsDepth items + 1
  | .object members => membersDepth members + 1
  | _ => 0

/-- The greatest depth of the values. -/
def itemsDepth : List Json → Nat
  | [] => 0
  | json :: items => max (depth json) (itemsDepth items)

/-- The greatest depth of the values of the members. -/
def membersDepth : List (String × Json) → Nat
  | [] => 0
  | (_, json) :: members => max (depth json) (membersDepth members)

end

mutual

/-- No object repeats a name. -/
def Distinct : Json → Prop
  | .array items => ItemsDistinct items
  | .object members => (members.map Prod.fst).Nodup ∧ MembersDistinct members
  | _ => True

/-- No object among the values repeats a name. -/
def ItemsDistinct : List Json → Prop
  | [] => True
  | json :: items => Distinct json ∧ ItemsDistinct items

/-- No object among the values of the members repeats a name. -/
def MembersDistinct : List (String × Json) → Prop
  | [] => True
  | (_, json) :: members => Distinct json ∧ MembersDistinct members

end

theorem itemsDepth_le_iff {items : List Json} {n : Nat} :
    itemsDepth items ≤ n ↔ ∀ json ∈ items, json.depth ≤ n := by
  induction items with
  | nil => simp [itemsDepth]
  | cons json items ih => simp only [itemsDepth, Nat.max_le, ih, List.forall_mem_cons]

theorem membersDepth_le_iff {members : List (String × Json)} {n : Nat} :
    membersDepth members ≤ n ↔ ∀ member ∈ members, member.2.depth ≤ n := by
  induction members with
  | nil => simp [membersDepth]
  | cons member members ih => simp only [membersDepth, Nat.max_le, ih, List.forall_mem_cons]

/-- The characters that a value may start with. -/
def Opens : Json → Char → Prop
  | .null, c => c = 'n'
  | .bool b, c => c = if b then 't' else 'f'
  | .number _, c => c = '-' ∨ c.isDigit = true
  | .string _, c => c = '"'
  | .array _, c => c = '['
  | .object _, c => c = '\x7b'

@[simp] theorem opens_n_iff {json : Json} : json.Opens 'n' ↔ json = .null := by
  cases json <;> simp [Opens]
  split <;> simp

@[simp] theorem opens_t_iff {json : Json} : json.Opens 't' ↔ json = .bool true := by
  cases json <;> simp [Opens]

@[simp] theorem opens_f_iff {json : Json} : json.Opens 'f' ↔ json = .bool false := by
  cases json <;> simp [Opens]

@[simp] theorem opens_minus_iff {json : Json} : json.Opens '-' ↔ ∃ n, json = .number n := by
  cases json <;> simp [Opens]
  split <;> simp

@[simp] theorem opens_mark_iff {json : Json} : json.Opens '"' ↔ ∃ s, json = .string s := by
  cases json <;> simp [Opens]
  split <;> simp

@[simp] theorem opens_bracket_iff {json : Json} :
    json.Opens '[' ↔ ∃ items, json = .array items := by
  cases json <;> simp [Opens]
  split <;> simp

@[simp] theorem opens_brace_iff {json : Json} :
    json.Opens '\x7b' ↔ ∃ members, json = .object members := by
  cases json <;> simp [Opens]
  split <;> simp

theorem opens_digit_iff {json : Json} {c : Char} (hc : c.isDigit = true) :
    json.Opens c ↔ ∃ n, json = .number n := by
  have hne (d : Char) (hd : d.isDigit = false) : c ≠ d := by
    rintro rfl
    simp [hc] at hd
  cases json with
  | number n => simp [Opens, hc]
  | bool b => cases b <;> simp [Opens, hne]
  | _ => simp [Opens, hne]

/-- No value starts with a comma or a closing character. -/
theorem not_opens_of_mem {json : Json} {c : Char} (hc : c ∈ [',', ']', '\x7d']) :
    ¬ json.Opens c := by
  simp only [List.mem_cons, List.not_mem_nil, or_false] at hc
  rcases hc with rfl | rfl | rfl <;> cases json <;> simp [Opens] <;> split <;> simp

theorem not_opens_closing {json : Json} : ¬ json.Opens ']' :=
  not_opens_of_mem (by simp)

end Json

/-- A word behind white space stands there by its first character. -/
theorem word_unspaced_iff {word : String} {c : Char} {cs : List Char} {text rest : Bytes}
    (hword : word.toList = c :: cs) : Word word (unspaced text) rest ↔
      ∃ t, Next c text t ∧ scanWord cs t = .ok ((), rest) := by
  simp only [Word, Next, scanWord_eq_ok_iff, hword]
  constructor
  · rintro ⟨bytes, hmap, htext⟩
    cases bytes with
    | nil => simp at hmap
    | cons b bytes =>
      simp only [List.map_cons, List.cons.injEq] at hmap
      exact ⟨bytes ++ rest, ⟨b, htext, hmap.1⟩, bytes, hmap.2, rfl⟩
  · rintro ⟨_, ⟨b, htext, rfl⟩, bytes, rfl, rfl⟩
    exact ⟨b :: bytes, rfl, htext⟩

namespace Json

theorem spelled_unspaced_iff {json : Json} {text rest : Bytes} :
    json.Spelled (unspaced text) rest ↔ json.Spelled text rest := by
  cases json with
  | bool b => cases b <;> simp [Spelled]
  | _ => simp [Spelled]

theorem itemsSpelled_unspaced_iff {items : List Json} {text rest : Bytes} :
    ItemsSpelled items false (unspaced text) rest ↔ ItemsSpelled items false text rest := by
  cases items <;> simp [ItemsSpelled, Lead]

theorem membersSpelled_unspaced_iff {members : List (String × Json)} {text rest : Bytes} :
    MembersSpelled members false (unspaced text) rest ↔ MembersSpelled members false text rest := by
  cases members <;> simp [MembersSpelled, Lead]

/-- A value that is spelled starts with a character that opens it. -/
theorem Spelled.opens {json : Json} {text rest : Bytes} (h : json.Spelled text rest) :
    ∃ c t, Next c text t ∧ json.Opens c := by
  cases json with
  | null =>
    obtain ⟨t, ht, -⟩ := (word_unspaced_iff rfl).1 h
    exact ⟨'n', t, ht, rfl⟩
  | bool b =>
    cases b with
    | true =>
      obtain ⟨t, ht, -⟩ := (word_unspaced_iff rfl).1 h
      exact ⟨'t', t, ht, rfl⟩
    | false =>
      obtain ⟨t, ht, -⟩ := (word_unspaced_iff rfl).1 h
      exact ⟨'f', t, ht, rfl⟩
  | number n =>
    rcases h with h | ⟨digits, hnext, -⟩
    · obtain ⟨b, digits, htext, hb⟩ := isDigit_of_scanNumeral h
      exact ⟨Char.ofUInt8 b, digits, ⟨b, htext, rfl⟩, .inr hb⟩
    · exact ⟨'-', digits, hnext, .inl rfl⟩
  | string s =>
    obtain ⟨quoted, hnext, -⟩ := h
    exact ⟨'"', quoted, hnext, rfl⟩
  | array items =>
    obtain ⟨inner, hnext, -⟩ := h
    exact ⟨'[', inner, hnext, rfl⟩
  | object members =>
    obtain ⟨inner, hnext, -⟩ := h
    exact ⟨'\x7b', inner, hnext, rfl⟩

/-- What comes next where a value is spelled opens the value. -/
theorem Spelled.opens_of_next {json : Json} {text rest behind : Bytes} {c : Char}
    (h : json.Spelled text rest) (hnext : Next c text behind) : json.Opens c := by
  obtain ⟨d, t, hd, hopens⟩ := h.opens
  obtain ⟨rfl, -⟩ := hnext.unique hd
  exact hopens

/-- Where a bracket stands, the elements are at their end. -/
theorem ItemsSpelled.of_bracket {items : List Json} {first : Bool} {text rest t : Bytes}
    (h : ItemsSpelled items first text rest) (hnext : Next ']' text t) :
    items = [] ∧ rest = t := by
  cases items with
  | nil => exact ⟨rfl, (Next.unique h hnext).2⟩
  | cons json items =>
    obtain ⟨item, behind, hlead, hjson, -⟩ := h
    cases first with
    | true =>
      cases hlead
      exact absurd (hjson.opens_of_next hnext) not_opens_closing
    | false => cases (Next.unique hlead hnext).1

/-- Where no bracket stands at the lead, another element follows there. -/
theorem ItemsSpelled.of_lead {items : List Json} {first : Bool} {text rest t u : Bytes} {c : Char}
    (h : ItemsSpelled items first text rest) (hlead : Lead first text t) (hnext : Next c t u)
    (hne : c ≠ ']') : ∃ json others behind, items = json :: others ∧ json.Spelled t behind ∧
      ItemsSpelled others false behind rest := by
  cases items with
  | nil =>
    have hbracket : Next ']' text rest := h
    cases first with
    | true =>
      cases hlead
      exact absurd (hnext.unique hbracket).1 hne
    | false => cases (Next.unique hlead hbracket).1
  | cons json items =>
    obtain ⟨item, behind, hlead', hjson, hitems⟩ := h
    obtain rfl := hlead.unique hlead'
    exact ⟨json, items, behind, rfl, hjson, hitems⟩

/-- Where a brace stands, the members are at their end. -/
theorem MembersSpelled.of_brace {members : List (String × Json)} {first : Bool}
    {text rest t : Bytes} (h : MembersSpelled members first text rest)
    (hnext : Next '\x7d' text t) : members = [] ∧ rest = t := by
  cases members with
  | nil => exact ⟨rfl, (Next.unique h hnext).2⟩
  | cons m members =>
    obtain ⟨name, json⟩ := m
    obtain ⟨start, quoted, colon, item, behind, hlead, hmark, -⟩ := h
    cases first with
    | true =>
      cases hlead
      cases (hmark.unique hnext).1
    | false => cases (Next.unique hlead hnext).1

/-- Where a mark stands at the lead, another member follows there. -/
theorem MembersSpelled.of_lead {members : List (String × Json)} {first : Bool}
    {text rest t quoted : Bytes} (h : MembersSpelled members first text rest)
    (hlead : Lead first text t) (hmark : Next '"' t quoted) :
    ∃ name json others colon item behind, members = (name, json) :: others ∧
      Chars quoted (utf8 name) colon ∧ Next ':' colon item ∧ json.Spelled item behind ∧
        MembersSpelled others false behind rest := by
  cases members with
  | nil =>
    have hbrace : Next '\x7d' text rest := h
    cases first with
    | true =>
      cases hlead
      cases (hmark.unique hbrace).1
    | false => cases (Next.unique hlead hbrace).1
  | cons m members =>
    obtain ⟨name, json⟩ := m
    obtain ⟨start, quoted', colon, item, behind, hlead', hmark', hname, hcolon, hjson, hmembers⟩ := h
    obtain rfl := hlead.unique hlead'
    obtain ⟨-, rfl⟩ := hmark.unique hmark'
    exact ⟨name, json, members, colon, item, behind, rfl, hname, hcolon, hjson, hmembers⟩

/-- A relation between what stands behind the next character, once that is known. -/
theorem exists_next_iff {c : Char} {text t : Bytes} {p : Bytes → Prop} (hnext : Next c text t) :
    (∃ t, Next c text t ∧ p t) ↔ p t := by
  constructor
  · rintro ⟨t', hnext', h⟩
    rwa [(hnext.unique hnext').2]
  · intro h
    exact ⟨t, hnext, h⟩

theorem number_spelled_minus_iff {n : Number} {text t rest : Bytes} (hnext : Next '-' text t) :
    (Json.number n).Spelled text rest ↔ scanNumeral true t = .ok (n, rest) := by
  simp only [Spelled, exists_next_iff hnext, or_iff_right_iff_imp]
  intro h
  obtain ⟨b, digits, htext, hb⟩ := isDigit_of_scanNumeral h
  obtain ⟨a, htext', ha⟩ := hnext
  rw [htext, List.cons.injEq] at htext'
  rw [htext'.1, ha] at hb
  cases hb

theorem number_spelled_digit_iff {n : Number} {c : Char} {text t rest : Bytes}
    (hnext : Next c text t) (hc : c.isDigit = true) :
    (Json.number n).Spelled text rest ↔ scanNumeral false (unspaced text) = .ok (n, rest) := by
  simp only [Spelled, or_iff_left_iff_imp]
  rintro ⟨digits, hminus, -⟩
  obtain ⟨rfl, -⟩ := hnext.unique hminus
  cases hc

mutual

/-- A value that is spelled is one of the grammar. -/
theorem Spelled.grammar : {json : Json} → {text rest : Bytes} → json.Spelled text rest →
    Value text rest
  | .null, _, _, h => .scalar (.word (by simp) h)
  | .bool true, _, _, h => .scalar (.word (by simp) h)
  | .bool false, _, _, h => .scalar (.word (by simp) h)
  | .number _, _, _, .inl h => .scalar (.positive (numeral_of_scanNumeral h))
  | .number _, _, _, .inr ⟨_, ⟨_, htext, hb⟩, h⟩ =>
    .scalar (htext ▸ .negative hb (numeral_of_scanNumeral h))
  | .string _, _, _, ⟨_, ⟨_, htext, hb⟩, h⟩ => .scalar (htext ▸ .string hb h.escaped)
  | .array items, _, _, ⟨_, hopen, h⟩ => .array hopen (ItemsSpelled.grammar h)
  | .object members, _, _, ⟨_, hopen, h⟩ => .object hopen (MembersSpelled.grammar h)

theorem ItemsSpelled.grammar : {items : List Json} → {first : Bool} → {text rest : Bytes} →
    ItemsSpelled items first text rest → Elements first text rest
  | [], _, _, _, h => .close h
  | _ :: _, _, _, _, ⟨_, _, hlead, hitem, h⟩ =>
    .item hlead (Spelled.grammar hitem) (ItemsSpelled.grammar h)

theorem MembersSpelled.grammar : {members : List (String × Json)} → {first : Bool} →
    {text rest : Bytes} → MembersSpelled members first text rest → Members first text rest
  | [], _, _, _, h => .close h
  | (_, _) :: _, _, _, _, ⟨_, _, _, _, _, hlead, hmark, hname, hcolon, hitem, h⟩ =>
    .member hlead hmark hname.escaped hcolon (Spelled.grammar hitem) (MembersSpelled.grammar h)

end

/-- Each element takes some of the text, and so does the bracket behind them. -/
theorem ItemsSpelled.length_lt {items : List Json} {first : Bool} {text rest : Bytes}
    (h : ItemsSpelled items first text rest) : items.length + rest.length < text.length := by
  induction items generalizing first text with
  | nil => simpa using Next.length_lt h
  | cons json items ih =>
    obtain ⟨item, behind, hlead, hitem, h⟩ := h
    have hle := hlead.length_le
    have hlt := hitem.grammar.length_lt
    have hitems := ih h
    rw [List.length_cons]
    omega

/-- Each member takes some of the text, and so does the brace behind them. -/
theorem MembersSpelled.length_lt {members : List (String × Json)} {first : Bool}
    {text rest : Bytes} (h : MembersSpelled members first text rest) :
    members.length + rest.length < text.length := by
  induction members generalizing first text with
  | nil => simpa using Next.length_lt h
  | cons m members ih =>
    obtain ⟨start, quoted, colon, item, behind, hlead, hmark, hname, hcolon, hitem, h⟩ := h
    have hle := hlead.length_le
    have hquoted := hmark.length_lt
    have hbehind := hname.escaped.length_lt
    have hstart := hcolon.length_lt
    have hlt := hitem.grammar.length_lt
    have hmembers := ih h
    rw [List.length_cons]
    omega

/-! ## Repeated names -/

end Json

namespace Dictionary

variable {β : Type}

theorem setEntry_of_not_mem {key : String} {value : β} {entries : List (String × β)}
    (h : key ∉ entries.map Prod.fst) : setEntry key value entries = entries ++ [(key, value)] := by
  induction entries with
  | nil => rfl
  | cons entry entries ih =>
    simp only [List.map_cons, List.mem_cons, not_or] at h
    have hne : ¬ entry.1 = key := fun heq => h.1 heq.symm
    simp only [setEntry, hne, if_false, ih h.2, List.cons_append]

theorem entries_foldl_insert {members : List (String × β)} {d : Dictionary β}
    (h : (d.keys ++ members.map Prod.fst).Nodup) :
    (members.foldl (fun d member => d.insert member.1 member.2) d).entries =
      d.entries ++ members := by
  induction members generalizing d with
  | nil => simp
  | cons member members ih =>
    have hnew : member.1 ∉ d.keys := by
      intro hmem
      rw [List.map_cons, List.nodup_append] at h
      exact h.2.2 _ hmem _ List.mem_cons_self rfl
    have hentries : (d.insert member.1 member.2).entries = d.entries ++ [member] :=
      setEntry_of_not_mem hnew
    rw [List.foldl_cons, ih, hentries, List.append_assoc, List.singleton_append]
    simpa [keys, hentries] using h

/-- Members of distinct names are the entries of the map that they make. -/
theorem entries_ofList {members : List (String × β)} (h : (members.map Prod.fst).Nodup) :
    (ofList members).entries = members :=
  entries_foldl_insert (by simpa [keys, empty] using h)

/-- The entries of a map make the map. -/
@[simp] theorem ofList_entries (d : Dictionary β) : ofList d.entries = d := by
  obtain ⟨entries, nodup⟩ := d
  have h : (ofList entries).entries = entries := entries_ofList nodup
  cases hd : ofList entries
  simp_all

end Dictionary

namespace Json

mutual

/-- A value whose objects repeat no name is its own resolution. -/
theorem resolve_of_distinct : {json : Json} → json.Distinct → json.resolve = json
  | .null, _ | .bool _, _ | .number _, _ | .string _, _ => rfl
  | .array _, h => by rw [resolve, resolveItems_of_distinct h]
  | .object _, ⟨hnames, h⟩ => by
    rw [resolve, resolveMembers_of_distinct h, Dictionary.entries_ofList hnames]

theorem resolveItems_of_distinct : {items : List Json} → ItemsDistinct items →
    resolveItems items = items
  | [], _ => rfl
  | _ :: _, ⟨hjson, h⟩ => by
    rw [resolveItems, resolve_of_distinct hjson, resolveItems_of_distinct h]

theorem resolveMembers_of_distinct : {members : List (String × Json)} → MembersDistinct members →
    resolveMembers members = members
  | [], _ => rfl
  | (_, _) :: _, ⟨hjson, h⟩ => by
    rw [resolveMembers, resolve_of_distinct hjson, resolveMembers_of_distinct h]

end

end Json
end CredentialCeremony
