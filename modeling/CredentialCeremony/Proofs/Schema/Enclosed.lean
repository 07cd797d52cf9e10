import CredentialCeremony.Proofs.Reading.Enclosed

set_option autoImplicit false

/-!
# Schemas stay within their values

Where failures are passed over behind values only, a value is read by itself, whatever its schema
and whatever follows it (`Schema.encloses`), and so is a member of a record
(`Fields.member_encloses`).
-/

namespace CredentialCeremony

open Reader Grammar

namespace Reader

variable {α : Type} {r : Reader α}

/-- A reader that looks at the first character of a value. -/
theorem Encloses.of_front {f : Option Char → Reader α}
    (h : ∀ ch v t, Value v [] → Next ch v t → Front (unspaced v) t [] ch →
      Confined (f (some ch)) (unspaced v)) : Encloses (peek >>= f) := by
  intro v hvalue
  obtain ⟨ch, t, hnext, -⟩ := exists_next_of_value hvalue
  exact .peek_bind hnext (h ch v t hvalue hnext (hvalue.front hnext))

theorem Encloses.bind_extract {β : Type} (h : Encloses r) {x : α → Extractor β}
    (hx : ∀ a, (x a).Logs) : Encloses (do extract (x (← r))) := fun v hvalue =>
  (h v hvalue).bind fun a _ _ _ _ => extract_confined (hx a)

theorem Encloses.map {β : Type} (h : Encloses r) (f : α → β) : Encloses (do return f (← r)) :=
  fun v hvalue => (h v hvalue).map f

theorem nested_confined {body : Nat → Reader α} {ch : Char} {text t : Bytes} {depth : Nat}
    (hnext : Next ch text t) (h : ∀ depth, Confined (body depth) t) :
    Confined (nested depth body) (unspaced text) := by
  cases depth with
  | zero => exact fail_confined
  | succ depth => exact .advance_bind hnext (h depth)

theorem string_encloses : Encloses Reader.string := by
  apply Encloses.of_front
  intro ch v t _ hnext hfront
  split
  · rename_i heq
    obtain rfl := Option.some.inj heq
    exact .advance_bind hnext (stringBody_confined hfront)
  · exact fail_confined

theorem flag_encloses : Encloses Reader.flag := by
  apply Encloses.of_front
  intro ch v t _ hnext hfront
  split
  · rename_i heq
    obtain rfl := Option.some.inj heq
    exact .advance_bind hnext ((word_confined hfront).bind fun _ _ _ _ _ => pure_confined true)
  · rename_i heq
    obtain rfl := Option.some.inj heq
    exact .advance_bind hnext ((word_confined hfront).bind fun _ _ _ _ _ => pure_confined false)
  · exact fail_confined

theorem number_encloses : Encloses number := by
  apply Encloses.of_front
  intro ch v t _ hnext hfront
  split
  · rename_i heq
    obtain rfl := Option.some.inj heq
    exact .advance_bind hnext (numeral_confined hfront true)
  · rename_i c _ heq
    obtain rfl := Option.some.inj heq
    split
    · rename_i hdigit
      exact numeral_confined ((front_iff_of_digit hdigit).1 hfront) false
    · exact fail_confined
  · exact fail_confined

theorem ofNumber_encloses {x : Json → Extractor α} (hx : ∀ json, (x json).Logs) :
    Encloses (ofNumber x) :=
  number_encloses.bind_extract fun n => hx (.number n)

theorem array_encloses {element : Nat → Reader α} (hsound : ∀ depth, Sound (element depth))
    (h : ∀ depth, Encloses (element depth)) (depth : Nat) : Encloses (array depth element) := by
  apply Encloses.of_front
  intro ch v t _ hnext hfront
  split
  · rename_i heq
    obtain rfl := Option.some.inj heq
    refine nested_confined hnext fun depth => ?_
    refine (elements_confined (hsound depth) (h depth) hfront).bind fun as rest w w' has => ?_
    have hleft : unspaced (left (elements (element depth) ⟨t, w⟩)) ≠ [] :=
      elementsAlong_leaves (hsound depth) (h depth) hfront (Nat.le_refl _) w
    rw [has] at hleft
    exact (closeArray_confined hleft).map fun _ => as
  · exact fail_confined

theorem bytes_encloses (depth : Nat) : Encloses (Reader.bytes depth) := by
  apply Encloses.of_front
  intro ch v t hvalue hnext hfront
  split
  · rename_i heq
    obtain rfl := Option.some.inj heq
    refine .advance_bind hnext ((stringBody_confined hfront).bind fun s _ _ _ _ => ?_)
    exact extract_confined (Extractor.logs_bytes _)
  · have hitem := ofNumber_encloses Extractor.logs_byte
    exact array_encloses (fun _ => (byte_exact 0).sound) (fun _ => hitem) depth _
      (value_unspaced_iff.2 hvalue)
  · exact fail_confined

theorem timeout_encloses (depth : Nat) : Encloses (Reader.timeout .behindValue depth) := by
  intro v hvalue
  refine ((value_encloses depth v hvalue).tolerate hvalue).bind fun tried _ _ _ _ => ?_
  cases tried with
  | ok json => exact extract_confined (Extractor.logs_timeout json)
  | error e => exact (warn_confined _).bind fun _ _ _ _ _ => pure_confined none

theorem Encloses.orElse (h : Encloses r) (default : α) :
    Encloses (orElse .behindValue r default) := by
  intro v hvalue
  refine ((h v hvalue).tolerate hvalue).bind fun tried _ _ _ _ => ?_
  cases tried with
  | ok a => exact pure_confined a
  | error e => exact pure_confined default

theorem Encloses.nullable (h : Encloses r) : Encloses (nullable r) := by
  apply Encloses.of_front
  intro ch v t hvalue hnext hfront
  split
  · rename_i heq
    obtain rfl := Option.some.inj heq
    exact .advance_bind hnext ((word_confined hfront).bind fun _ _ _ _ _ => pure_confined none)
  · exact (h _ (value_unspaced_iff.2 hvalue)).map some

theorem skip_encloses : Encloses skip := by
  intro v hvalue more hmore log w
  have hshort : skip ⟨v, w⟩ = .ok () ⟨[], w⟩ := skip_eq_ok_iff.2 ⟨hvalue, rfl⟩
  have hlong : skip ⟨v ++ more, log ++ w⟩ = .ok () ⟨more, log ++ w⟩ :=
    skip_eq_ok_iff.2 ⟨value_append hvalue hmore, rfl⟩
  rw [hlong, hshort]
  rfl

/-- The name of a choice is looked for behind an opening brace. -/
theorem choiceName_confined {text : Bytes} (h : Members true text []) :
    Confined choiceName text := by
  cases h with
  | close hnext =>
    apply Confined.peek_bind hnext
    exact .peek_bind (next_unspaced_iff.2 hnext) fail_confined
  | member hlead hmark hname _ _ _ =>
    obtain rfl := hlead
    exact .opening hmark rfl (stringBody_confined hname)

theorem choiceNull_encloses : Encloses choiceNull := by
  apply Encloses.of_front
  intro ch v t hvalue hnext hfront
  split
  · rename_i heq
    obtain rfl := Option.some.inj heq
    exact .advance_bind hnext (word_confined hfront)
  · exact unexpected_encloses _ (value_unspaced_iff.2 hvalue)

/-- A choice that is an object, behind its opening brace. -/
theorem choiceMembers_confined (c : Choice α) {text : Bytes} (h : Members true text []) :
    Confined (do
      let name ← choiceName
      let a ← extract (Extractor.ofExcept (c.ofName name))
      colon
      choiceNull
      closeObject
      return a) text := by
  refine (choiceName_confined h).bind fun name rest w w' hread => ?_
  obtain ⟨⟨quoted, hmark, hchars⟩, -⟩ := choiceName_eq_ok_iff.1 hread
  refine (extract_confined (Extractor.logs_ofExcept _)).bind fun a rest' _ _ ha => ?_
  obtain ⟨-, rfl⟩ := extract_eq_ok_iff.1 ha
  cases h with
  | close hbrace => cases (hbrace.unique hmark).1
  | member hlead hmark' hname hcolon hitem hothers =>
    obtain rfl := hlead
    obtain ⟨-, rfl⟩ := hmark.unique hmark'
    obtain rfl := hname.unique hchars.escaped
    refine .colon_bind hcolon ?_
    refine (choiceNull_encloses.confined hitem hothers.stops).bind fun _ rest _ _ hnull => ?_
    obtain rfl := (choiceNull_eq_ok_iff.1 hnull).1.grammar.unique hitem
    exact (closeObject_confined (unspaced_ne_nil_of_members hothers)).map _

theorem choice_encloses (depth : Nat) (c : Choice α) : Encloses (choice depth c) := by
  apply Encloses.of_front
  intro ch v t hvalue hnext hfront
  split
  · rename_i heq
    obtain rfl := Option.some.inj heq
    refine .advance_bind hnext ((stringBody_confined hfront).bind fun s _ _ _ _ => ?_)
    exact extract_confined (Extractor.logs_ofExcept _)
  · rename_i heq
    obtain rfl := Option.some.inj heq
    exact nested_confined hnext fun _ => choiceMembers_confined c hfront
  · exact fail_confined

/-! ## Records -/

section Records

variable {σ : Type} {member : String → σ → Reader σ} {text : Bytes}

/-- A loop over members ends in front of a brace. -/
theorem unspaced_ne_nil_of_rounds {first : Bool} {s s' : σ} {c c' : Cursor} {names : List String}
    (h : MemberRounds member first s c names s' c') : unspaced c'.rest ≠ [] := by
  induction names generalizing first s c with
  | nil =>
    obtain ⟨-, ⟨rest, hbrace⟩, rfl⟩ := h
    simpa using unspaced_ne_nil hbrace
  | cons name names ih =>
    obtain ⟨_, _, _, _, _, -, -, -, -, hrounds⟩ := h
    exact ih hrounds

/-- What is behind the members of an object stands in front of its closing brace. -/
theorem members_bind_confined (hsound : MemberSound member) (h : MemberEncloses member) {s : σ}
    {behind : σ → Reader α} (hbehind : ∀ s rest, unspaced rest ≠ [] → Confined (behind s) rest)
    (htext : Members true text []) : Confined (members member s >>= behind) text := by
  refine (members_confined hsound h s htext).bind fun s rest w w' hmembers => ?_
  obtain ⟨names, hrounds, -⟩ := members_eq_ok_iff.1 hmembers
  exact hbehind s rest (unspaced_ne_nil_of_rounds hrounds)

end Records

theorem dictionary_encloses (mode : Resumption) (depth : Nat) :
    Encloses (Schema.dictionary.read mode depth) := by
  rw [Schema.read]
  apply Encloses.of_front
  intro ch v t _ hnext hfront
  split
  · rename_i heq
    obtain rfl := Option.some.inj heq
    refine nested_confined hnext fun _ => ?_
    let put (name : String) (d : Dictionary String) (s : String) := d.insert name s
    exact members_bind_confined ((string_exact 0).sound.member put) (string_encloses.member put)
      (fun d rest hrest => (closeObject_confined hrest).map _) hfront
  · exact fail_confined

end Reader

/-- Behind the fields of a record in an array, the bracket is still to come. -/
theorem Fields.unspaced_ne_nil_of_readElements : {τ σ : Type} → (fields : Fields τ σ) →
    {depth : Nat} → {first : Bool} → {c c' : Cursor} → {parts : τ} → Elements first c.rest [] →
      fields.readElements .behindValue depth first c = .ok parts c' → unspaced c'.rest ≠ []
  | _, _, .nil, _, _, _, _, _, helements, h => by
    obtain ⟨-, rfl⟩ := pure_eq_ok_iff.1 h
    exact unspaced_ne_nil_of_elements helements
  | _, _, .cons _ _ schema _ others, depth, first, c, c', _, helements, h => by
    rcases readElements_cons_eq_ok_iff.1 h with
      ⟨t, hbracket, _, _, -, -, -, rfl⟩ | ⟨item, -, hlead, a, c₁, ha, parts, hparts, -⟩
    · simpa using unspaced_ne_nil hbracket
    · refine others.unspaced_ne_nil_of_readElements ?_ hparts
      cases helements with
      | close hbracket =>
        have hvalue := value_unspaced_iff.1 (schema.sound depth _ _ _ ha)
        exact absurd hbracket (not_bracket_of_lead hlead hvalue)
      | item hlead' hitem hothers =>
        obtain rfl := hlead.unique hlead'
        have hrest := (schema.sound depth _ _ _ ha).unique (value_unspaced_iff.2 hitem)
        rwa [hrest]

theorem record_encloses {τ σ α : Type} {fields : Fields τ σ} {layout : Layout τ α}
    (hmember : ∀ depth, MemberEncloses
      (fun name read => fields.readMember .behindValue depth name read))
    (helements : ∀ depth text, Elements true text [] →
      Confined (fields.readElements .behindValue depth true) text)
    (depth : Nat) : Encloses ((Schema.record fields layout).read .behindValue depth) := by
  rw [Schema.read]
  apply Encloses.of_front
  intro ch v t _ hnext hfront
  split
  · rename_i heq
    obtain rfl := Option.some.inj heq
    refine nested_confined hnext fun depth => ?_
    refine members_bind_confined (fields.member_sound depth) (hmember depth) ?_ hfront
    intro read rest hrest
    refine (extract_confined (Extractor.logs_ofExcept _)).bind fun parts rest' w w' hparts => ?_
    obtain ⟨-, rfl⟩ := extract_eq_ok_iff.1 hparts
    exact (closeObject_confined hrest).map _
  · rename_i heq
    obtain rfl := Option.some.inj heq
    refine nested_confined hnext fun depth => ?_
    have hitems : Elements true t [] := hfront
    refine (helements depth t hitems).bind fun parts rest w w' hread => ?_
    exact (closeArray_confined (fields.unspaced_ne_nil_of_readElements hitems hread)).map _
  · exact fail_confined

theorem readExtensible_encloses {κ : Type} {name : String} {known : Schema κ} {depth : Nat}
    (h : Encloses (known.read .behindValue depth)) :
    MemberEncloses (readExtensible .behindValue name known depth) := by
  intro given read text item rest hcolon hitem hrest
  rw [readExtensible]
  split
  · split
    · exact throw_confined _
    · exact .colon_bind hcolon ((h.nullable.confined hitem hrest).map _)
  · exact .colon_bind hcolon (((value_encloses depth).confined hitem hrest).map _)

theorem extensible_encloses {κ : Type} {name : String} {known : Schema κ}
    (h : ∀ depth, Encloses (known.read .behindValue depth)) (depth : Nat) :
    Encloses ((Schema.extensible name known).read .behindValue depth) := by
  rw [Schema.read]
  apply Encloses.of_front
  intro ch v t _ hnext hfront
  split
  · rename_i heq
    obtain rfl := Option.some.inj heq
    refine nested_confined hnext fun depth => ?_
    refine members_bind_confined (readExtensible_sound (known.sound depth))
      (readExtensible_encloses (h depth)) ?_ hfront
    intro read rest hrest
    exact (closeObject_confined hrest).map _
  · exact fail_confined

mutual

/-- What is read behind values only is read of a value by itself. -/
theorem Schema.encloses : {α : Type} → (s : Schema α) → (depth : Nat) →
    Encloses (s.read .behindValue depth)
  | _, .string, _ => string_encloses
  | _, .bytes, depth => bytes_encloses depth
  | _, .flag, _ => flag_encloses
  | _, .word, _ => ofNumber_encloses Extractor.logs_word
  | _, .integer, _ => ofNumber_encloses Extractor.logs_integer
  | _, .timeout, depth => timeout_encloses depth
  | _, .spelled s, _ =>
    string_encloses.bind_extract fun text => Extractor.logs_ofExcept (s.parse text)
  | _, .choice c, depth => choice_encloses depth c
  | _, .lenient c default, depth => (choice_encloses depth c).orElse default
  | _, .lenientOption c, depth => (choice_encloses depth c).nullable.orElse none
  | _, .nullable s, depth => (Schema.encloses s depth).nullable
  | _, .list s, depth => array_encloses s.sound (Schema.encloses s) depth
  | _, .tolerant s, depth => by
    have hitems := array_encloses (fun depth => (value_exact depth).sound) value_encloses depth
    exact hitems.bind_extract fun items => Extractor.logs_readable s.extract_logs items
  | _, .listOrNull s, depth => (Schema.encloses s depth).nullable.map fun o => o.getD []
  | _, .dictionary, depth => dictionary_encloses .behindValue depth
  | _, .record fields _, depth => by
    apply record_encloses (Fields.member_encloses fields)
    intro depth text helements
    exact Fields.elements_confined fields depth true text helements
  | _, .extensible _ known, depth => extensible_encloses (Schema.encloses known) depth

theorem Fields.member_encloses : {τ σ : Type} → (fields : Fields τ σ) → (depth : Nat) →
    MemberEncloses (fun name read => fields.readMember .behindValue depth name read)
  | _, _, .nil, _ => by
    intro name read text item rest hcolon hitem hrest
    exact .colon_bind hcolon ((skip_encloses.confined hitem hrest).map _)
  | _, _, .cons name aliases schema _ others, depth => by
    intro given read text item rest hcolon hitem hrest
    obtain ⟨known, read⟩ := read
    simp only [Fields.readMember]
    split
    · cases known with
      | some a => exact throw_confined _
      | none =>
        exact .colon_bind hcolon (((Schema.encloses schema depth).confined hitem hrest).map _)
    · exact (Fields.member_encloses others depth given read text item rest hcolon hitem hrest).map _

theorem Fields.elements_confined : {τ σ : Type} → (fields : Fields τ σ) → (depth : Nat) →
    (first : Bool) → (text : Bytes) → Elements first text [] →
      Confined (fields.readElements .behindValue depth first) text
  | _, _, .nil, _, _, _, _ => pure_confined ()
  | _, _, .cons _ _ schema presence others, depth, first, text, helements => by
    rw [Fields.readElements]
    refine (nextElement_confined helements).bind fun another rest w w' hread => ?_
    cases helements with
    | close hnext =>
      cases (nextElement_at_bracket hnext w).symm.trans hread
      simp only [Bool.false_eq_true, if_false]
      cases presence.absent? with
      | none => exact fail_confined
      | some a =>
        cases others.absent? with
        | none => exact fail_confined
        | some rest => exact pure_confined _
    | @item _ _ item behind _ hlead hitem hothers =>
      obtain ⟨ch, t, hnext, hne⟩ := exists_next_of_value hitem
      cases (nextElement_at_item hlead hnext (hne .array) w).symm.trans hread
      have hvalue := value_unspaced_iff.2 hitem
      have hread := (Schema.encloses schema depth).confined hvalue hothers.stops
      refine hread.bind fun a rest w w' ha => ?_
      obtain rfl : rest = behind := (schema.sound depth _ _ _ ha).unique hvalue
      exact (Fields.elements_confined others depth false _ hothers).map _

end
end CredentialCeremony
