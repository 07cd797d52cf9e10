import CredentialCeremony.Proofs.Schema.Place
import CredentialCeremony.Proofs.Schema.Verdict
import CredentialCeremony.Proofs.Schema.Whole

set_option autoImplicit false

/-!
# What is reported of an object

A record is read off an object member by member. A member of a field that has been read is refused at
its name, so nothing behind it is looked at (`Fields.members_of_repeat`); if there is none, all
members are read, whatever is missing (`Fields.members_of_nodup`).

Main statement: where every member is read by the field that it stands for, the verdict on the names
of the members is what is reported (`Fields.reported_of_verdict`).
-/

namespace CredentialCeremony

open Extractor Reader Grammar

variable {α τ σ : Type}

/-! ## Members that are read by their fields -/

/-- The value that starts at this place is read as `a`, and the reader ends behind it. -/
def Schema.ReadsAs (depth : Nat) {α : Type} (schema : Schema α) (item : Bytes) (a : α) : Prop :=
  ∃ behind, Value item behind ∧
    ∀ w, ∃ w', schema.read .inPlace depth ⟨item, w⟩ = .ok a ⟨behind, w'⟩

/-- What the tree of a value gives is what the value is read as, if the value is tame. -/
theorem Schema.ReadsAs.of_tame {schema : Schema α} {depth : Nat} {json : Json} {item behind : Bytes}
    {a : α} (hspelled : json.Spelled item behind) (hdepth : json.depth ≤ depth)
    (htame : schema.tame json = true) (ha : schema.Answers json a) : schema.ReadsAs depth item a := by
  refine ⟨behind, hspelled.grammar, ?_⟩
  intro w
  obtain ⟨w', hx⟩ := ((schema.extract_logs json).answers_iff w).2 ha
  exact ⟨w', schema.follows .inPlace depth _ _ _ _ _ _ hspelled hdepth htame hx⟩

/-- What a value is read as is read wherever the value ends. -/
theorem Schema.ReadsAs.read {schema : Schema α} {depth : Nat} {item behind : Bytes} {a : α}
    (h : schema.ReadsAs depth item a) (hvalue : Value item behind) (w : List TimeoutWarning) :
    ∃ w', schema.read .inPlace depth ⟨item, w⟩ = .ok a ⟨behind, w'⟩ := by
  obtain ⟨behind', hvalue', hread⟩ := h
  obtain rfl := hvalue'.unique hvalue
  exact hread w

namespace Fields

/-- If the member stands for a field, its value is read by that field. -/
def ReadsMember {τ σ : Type} (fields : Fields τ σ) (depth : Nat) (given : String) (item : Bytes) :
    Prop :=
  ∀ (γ : Type) (schema : Schema γ) (part : τ → γ), fields.Selects given schema part →
    ∃ a, schema.ReadsAs depth item a

variable {depth : Nat} {given : String} {item behind colonText : Bytes} {w : List TimeoutWarning}

/-- A member is tame, and taken out of a tree, just as it is for the field that it stands for. -/
theorem Selects.of_member {γ τ σ : Type} {schema : Schema γ} {fields : Fields τ σ} {part : τ → γ}
    (h : fields.Selects given schema part) (json : Json) :
    fields.tameMember given json = schema.tame json ∧
      (fields.extractMember given json fields.unread).answer?.isSome =
        (schema.extract json).answer?.isSome := by
  induction h with
  | here hown =>
    simp only [tameMember, extractMember, unread, if_pos hown, answer?_map, Option.isSome_map,
      and_self]
  | there hother _ ih =>
    simp only [tameMember, extractMember, unread, if_neg hother, answer?_map, Option.isSome_map]
    exact ih

/-- Where the tree of a text is an object of members that are tame and taken by the record, the text
has these members, and each is read by its field. -/
theorem exists_members_of_tree {τ σ : Type} (fields : Fields τ σ) {members : List (String × Json)}
    {text : Bytes} (htree : (Json.object members).IsTreeOf text)
    (hmembers : ∀ member ∈ members, fields.tameMember member.1 member.2 = true ∧
      (fields.extractMember member.1 member.2 fields.unread).answer?.isSome = true) :
    ∃ placed : List (String × Bytes), placed.map Prod.fst = members.map Prod.fst ∧
      (Outline.object placed).Of text ∧
        ∀ member ∈ placed, fields.ReadsMember (maxDepth - 1) member.1 member.2 := by
  obtain ⟨⟨rest, hspelled, hspace⟩, hdepth⟩ := htree
  have hdepths := Json.membersDepth_le_iff.1 (Nat.le_of_succ_le_succ hdepth)
  obtain ⟨placed, hplaced, hat⟩ := hspelled.outline rfl
  cases placed with
  | array => cases hplaced
  | object placed =>
    obtain rfl := Outline.object.inj hplaced
    refine ⟨_, ?_, ⟨rest, hat, unspaced_eq_nil_iff.1 hspace⟩, ?_⟩
    · simp
    intro member hmember γ schema part hselects
    obtain ⟨member, hplace, rfl⟩ := List.mem_map.1 hmember
    obtain ⟨behind, hjson⟩ := member.2.property
    have hmem := List.mem_map_of_mem (f := fun p : String × Json.Placed => (p.1, p.2.val.1)) hplace
    obtain ⟨htame, htaken⟩ := hmembers _ hmem
    obtain ⟨htame', htaken'⟩ := hselects.of_member member.2.val.1
    obtain ⟨a, ha⟩ := Option.isSome_iff_exists.1 (htaken'.symm.trans htaken)
    exact ⟨a, .of_tame hjson (hdepths _ hmem) (htame'.symm.trans htame) ha⟩

/-- A member is read if the field that it stands for has not been read, and then no other field
is. -/
theorem readMember_of_fresh : {τ σ : Type} → (fields : Fields τ σ) → (read : σ) →
    fields.ReadsMember depth given item → Next ':' colonText item → Value item behind →
    (∀ index, standsFor? fields.declared given = some index → ¬ fields.HasRead read index) →
    ∃ read' w', fields.readMember .inPlace depth given read ⟨colonText, w⟩ = .ok read' ⟨behind, w'⟩ ∧
      fields.Takes (Schema.ReadsAs depth) given item read read' ∧
        ∀ index, fields.HasRead read' index ↔
          fields.HasRead read index ∨ standsFor? fields.declared given = some index
  | _, _, .nil, _, _, hcolon, hvalue, _ => by
    refine ⟨(), w, readMember_nil_eq_ok_iff.2 ⟨item, hcolon, ?_⟩, trivial, ?_⟩
    · exact skip_eq_ok_iff.2 ⟨hvalue, rfl⟩
    · intro index
      simp [HasRead, standsFor?, declared]
  | _, _, .cons name aliases schema presence rest, (known, read), hreads, hcolon, hvalue, hfresh => by
    by_cases hown : given = name ∨ given ∈ aliases
    · have hstands : standsFor? (Fields.cons name aliases schema presence rest).declared given =
          some 0 := standsFor?_of_named hown
      obtain rfl : known = none := by simpa [HasRead] using hfresh 0 hstands
      obtain ⟨a, ha⟩ := hreads _ _ _ (.here hown)
      obtain ⟨w', hread⟩ := ha.read hvalue w
      refine ⟨(some a, read), w', readMember_cons_eq_ok_iff.2 (.inl ?_), .inl ?_, ?_⟩
      · exact ⟨hown, rfl, item, a, hcolon, hread, rfl⟩
      · exact ⟨hown, rfl, a, ha, rfl⟩
      · intro index
        rw [hstands]
        cases index <;> simp [HasRead]
    · obtain ⟨taken, w', hread, htakes, hhas⟩ := rest.readMember_of_fresh read
        (fun γ schema part hselects => hreads γ schema _ (.there hown hselects)) hcolon hvalue
        fun index hindex => hfresh (index + 1) (standsFor?_eq_succ_iff.2 ⟨hown, hindex⟩)
      refine ⟨(known, taken), w', readMember_cons_eq_ok_iff.2 (.inr ⟨hown, taken, hread, rfl⟩),
        .inr ⟨hown, taken, htakes, rfl⟩, ?_⟩
      intro index
      cases index with
      | zero => simp [HasRead, declared, standsFor?_eq_zero_iff, FieldInfo.Named, hown]
      | succ index =>
        have hother : ¬ FieldInfo.Named ⟨name, aliases, presence.absent?.isNone⟩ given := hown
        rw [declared, standsFor?_eq_succ_iff, and_iff_right hother]
        exact hhas index

/-- A member of a field that has been read is reported at its name, whatever its value is. -/
theorem readMember_of_taken : {τ σ : Type} → (fields : Fields τ σ) → (read : σ) → {index : Nat} →
    {field : FieldInfo} → standsFor? fields.declared given = some index →
    fields.HasRead read index → fields.declared[index]? = some field → (c : Cursor) →
    fields.readMember .inPlace depth given read c = .error (.duplicateField field.name) c
  | _, _, .nil, _, _, _, _, hread, _, _ => hread.elim
  | _, _, .cons name aliases _ _ _, (known, _), 0, _, hstands, hread, hfield, c => by
    have hown : given = name ∨ given ∈ aliases := standsFor?_eq_zero_iff.1 hstands
    obtain rfl := Option.some.inj hfield
    obtain ⟨a, rfl⟩ := Option.isSome_iff_exists.1 hread
    simp only [readMember, if_pos hown]
    rfl
  | _, _, .cons name aliases _ _ rest, (_, read), index + 1, _, hstands, hread, hfield, c => by
    obtain ⟨hnamed, hstands⟩ := standsFor?_eq_succ_iff.1 hstands
    have hother : ¬ (given = name ∨ given ∈ aliases) := hnamed
    simp only [readMember, if_neg hother]
    exact bind_of_error (rest.readMember_of_taken read hstands hread hfield c)

/-! ## Members in turn -/

variable {fields : Fields τ σ}

/-- The loop over the members passes those that give fields for the first time, and goes on behind
them. -/
theorem membersAlong_of_fresh {front back : List (String × Bytes)} {first : Bool}
    {clock text rest : Bytes} {w : List TimeoutWarning} {read : σ}
    (hmembers : MembersAt (front ++ back) first text rest) (hclock : front.length ≤ clock.length)
    (hreads : ∀ member ∈ front, fields.ReadsMember depth member.1 member.2)
    (hnodup : (positions fields.declared (front.map Prod.fst)).Nodup)
    (hfresh : ∀ index ∈ positions fields.declared (front.map Prod.fst),
      ¬ fields.HasRead read index) :
    ∃ read' first' text' w', fields.TakesAll (Schema.ReadsAs depth) front read read' ∧
      (∀ index, fields.HasRead read' index ↔
        fields.HasRead read index ∨ index ∈ positions fields.declared (front.map Prod.fst)) ∧
      MembersAt back first' text' rest ∧
      membersAlong (fields.readMember .inPlace depth) clock first read ⟨text, w⟩ =
        membersAlong (fields.readMember .inPlace depth) (clock.drop front.length) first' read'
          ⟨text', w'⟩ := by
  induction front generalizing first clock text w read with
  | nil => exact ⟨read, first, text, w, rfl, by simp [positions], hmembers, rfl⟩
  | cons member front ih =>
    obtain ⟨given, item⟩ := member
    obtain ⟨start, quoted, colonText, behind, hlead, hmark, hname, hcolon, hvalue, hmembers⟩ :=
      hmembers
    obtain ⟨b, clock, rfl⟩ :=
      List.exists_cons_of_length_pos (Nat.lt_of_lt_of_le (Nat.succ_pos _) hclock)
    rw [List.forall_mem_cons] at hreads
    rw [List.map_cons, nodup_positions_cons_iff] at hnodup
    simp only [List.map_cons, mem_positions_cons_iff] at hfresh ⊢
    obtain ⟨between, w₁, hread, htakes, hhas⟩ := fields.readMember_of_fresh read (w := w) hreads.1
      hcolon hvalue fun index hindex => hfresh index (.inl hindex)
    -- what the others stand for is neither read before nor by this member
    have hfresh' : ∀ index ∈ positions fields.declared (front.map Prod.fst),
        ¬ fields.HasRead between index := by
      intro index hindex hbetween
      rcases (hhas index).1 hbetween with hearlier | hstands
      · exact hfresh index (.inr hindex) hearlier
      · exact hnodup.1 index hstands hindex
    have hrest : front.length ≤ clock.length := Nat.le_of_succ_le_succ hclock
    obtain ⟨read', first', text', w', htakesAll, hhas', hback, hloop⟩ :=
      ih hmembers hrest hreads.2 hnodup.2 hfresh'
    refine ⟨read', first', text', w', ⟨between, htakes, htakesAll⟩, ?_, hback, ?_⟩
    · intro index
      rw [hhas', hhas, or_assoc]
    · rw [membersAlong_of_member hlead hmark hname, bind_of_ok hread]
      exact hloop

/-- The members are read up to the brace if no field occurs twice. -/
theorem members_of_nodup {members : List (String × Bytes)} {inner rest : Bytes}
    {w : List TimeoutWarning} (hmembers : MembersAt members true inner rest)
    (hreads : ∀ member ∈ members, fields.ReadsMember depth member.1 member.2)
    (hnodup : (positions fields.declared (members.map Prod.fst)).Nodup) :
    ∃ read c, Reader.members (fields.readMember .inPlace depth)
        fields.unread ⟨inner, w⟩ = .ok read c ∧ Next '\x7d' c.rest rest ∧
      fields.TakesAll (Schema.ReadsAs depth) members fields.unread read ∧
      ∀ index, fields.HasRead read index ↔
        index ∈ positions fields.declared (members.map Prod.fst) := by
  have hlength := hmembers.length_lt
  rw [← List.append_nil members] at hmembers
  obtain ⟨read, first, text, w', htakes, hhas, hbrace, hloop⟩ := membersAlong_of_fresh (w := w) hmembers
    (Nat.le_of_lt hlength) hreads hnodup fun index _ => fields.not_hasRead_unread index
  have hbrace : Next '\x7d' text rest := hbrace
  refine ⟨read, ⟨unspaced text, w'⟩, hloop.trans ?_, next_unspaced_iff.2 hbrace, htakes, ?_⟩
  · obtain ⟨b, clock, hclock⟩ := List.exists_cons_of_length_pos
      (List.length_drop ▸ Nat.sub_pos_of_lt hlength)
    rw [hclock, membersAlong, bind_of_ok (nextMember_of_brace hbrace)]
    rfl
  · intro index
    rw [hhas, or_iff_right (fields.not_hasRead_unread index)]

/-- The members are read up to the first one that repeats a field, and no further. -/
theorem members_of_repeat {front back : List (String × Bytes)} {given : String} {item : Bytes}
    {index : Nat} {field : FieldInfo} {inner rest : Bytes} {w : List TimeoutWarning}
    (hmembers : MembersAt (front ++ (given, item) :: back) true inner rest)
    (hreads : ∀ member ∈ front, fields.ReadsMember depth member.1 member.2)
    (hnodup : (positions fields.declared (front.map Prod.fst)).Nodup)
    (hstands : standsFor? fields.declared given = some index)
    (hmem : index ∈ positions fields.declared (front.map Prod.fst))
    (hfield : fields.declared[index]? = some field) :
    ∃ c, Reader.members (fields.readMember .inPlace depth)
      fields.unread ⟨inner, w⟩ = .error (.duplicateField field.name) c := by
  have hlength : front.length < inner.length := by
    have hall := hmembers.length_lt
    rw [List.length_append, List.length_cons] at hall
    omega
  obtain ⟨read, first, text, w', -, hhas, hback, hloop⟩ := membersAlong_of_fresh (w := w) hmembers
    (Nat.le_of_lt hlength) hreads hnodup fun index _ => fields.not_hasRead_unread index
  obtain ⟨start, quoted, colonText, behind, hlead, hmark, hname, -⟩ := hback
  obtain ⟨b, clock, hclock⟩ := List.exists_cons_of_length_pos
    (List.length_drop ▸ Nat.sub_pos_of_lt hlength)
  have htaken : fields.readMember .inPlace depth given read ⟨colonText, w'⟩ =
      .error (.duplicateField field.name) ⟨colonText, w'⟩ :=
    fields.readMember_of_taken read hstands ((hhas index).2 (.inr hmem)) hfield _
  refine ⟨⟨colonText, w'⟩, hloop.trans ?_⟩
  rw [hclock, membersAlong_of_member hlead hmark hname]
  exact bind_of_error htaken

end Fields

/-- The outcome that a verdict on an object asks for: its error or, if it has none, the record of
what the fields gather. -/
def Fields.Reported (fields : Fields τ σ) (layout : Layout τ α) (members : List (String × Bytes))
    (outcome : Except ReadError α) : Option ReadError → Prop
  | some e => outcome = .error e
  | none => ∃ parts, fields.Gathers (Schema.ReadsAs (maxDepth - 1)) members parts ∧
      outcome = .ok (layout.build parts)

/-- Where every member is read by the field that it stands for, the verdict on the names of the
members is what is reported. -/
theorem Fields.reported_of_verdict {fields : Fields τ σ} {layout : Layout τ α}
    {members : List (String × Bytes)} {text : Bytes} (htext : (Outline.object members).Of text)
    (hreads : ∀ member ∈ members, fields.ReadsMember (maxDepth - 1) member.1 member.2)
    {r : Option ReadError} (h : Verdict fields.declared (members.map Prod.fst) r) :
    fields.Reported layout members ((Schema.record fields layout).readText text).outcome r := by
  obtain ⟨rest, ⟨inner, hopen, hmembers⟩, hspace⟩ := htext
  have hread : (Schema.record fields layout).read .inPlace maxDepth ⟨text, []⟩ = _ :=
    read_record_of_brace hopen
  generalize hnames : members.map Prod.fst = names at h
  cases h with
  | duplicate hnodup hstands hmem hfield =>
    obtain ⟨front, taken, rfl, rfl, htaken⟩ := List.map_eq_append_iff.1 hnames
    obtain ⟨⟨given, item⟩, back, rfl, rfl, -⟩ := List.map_eq_cons_iff.1 htaken
    obtain ⟨c, hloop⟩ := members_of_repeat (w := []) hmembers
      (fun member hmember => hreads member (List.mem_append_left _ hmember)) hnodup hstands hmem hfield
    exact run_outcome_of_error (hread.trans (bind_of_error hloop))
  | @missing _ index field hnodup hlacks hfirst =>
    subst hnames
    obtain ⟨read, c, hloop, -, -, hhas⟩ := members_of_nodup (w := []) hmembers hreads hnodup
    have hcomplete : fields.complete read = .error (.missingField field.name) :=
      fields.complete_of_lacking ((lacking_iff_lacks hhas).2 hlacks) fun earlier hlt other h =>
        hfirst earlier hlt other ((lacking_iff_lacks hhas).1 h)
    have hparts : extract (Extractor.ofExcept (fields.complete read)) c =
        .error (.missingField field.name) c := by
      rw [hcomplete]
      rfl
    exact run_outcome_of_error (hread.trans ((bind_of_ok hloop).trans (bind_of_error hparts)))
  | complete hnodup hfull =>
    subst hnames
    obtain ⟨read, c, hloop, hbrace, htakes, hhas⟩ := members_of_nodup (w := []) hmembers hreads hnodup
    obtain ⟨parts, hparts⟩ := fields.exists_complete fun index field h =>
      hfull index field ((lacking_iff_lacks hhas).1 h)
    have hclose : closeObject c = .ok () ⟨rest, c.warnings⟩ :=
      closeObject_eq_ok_iff.2 ⟨rest, hbrace, rfl⟩
    have hrecord : (Schema.record fields layout).read .inPlace maxDepth ⟨text, []⟩ =
        .ok (layout.build parts) ⟨rest, c.warnings⟩ :=
      read_record_eq_ok_iff.2 ⟨maxDepth - 1, parts, inner, c, rfl, rfl,
        .inl ⟨read, hopen, hloop, hparts, hclose⟩⟩
    exact ⟨parts, (gathers_iff _).2 ⟨read, htakes, hparts⟩,
      congrArg Reading.outcome (run_eq_of_ok hrecord (unspaced_eq_nil_iff.2 hspace))⟩

end CredentialCeremony
