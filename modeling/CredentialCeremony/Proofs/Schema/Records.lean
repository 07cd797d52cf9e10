import CredentialCeremony.Proofs.Schema.Leaf

set_option autoImplicit false

/-!
# How records are read

A record is read off an object whose members give its fields, or off an array of them; an extensible
record is read off an object. Each law here says everything that such a reader can do when it
succeeds, in either mode (`read_record_eq_ok_iff`, `read_extensible_eq_ok_iff`, and those of the
fields), so what is shown about records afterwards never looks at the reader again.
-/

namespace CredentialCeremony

open Reader Grammar

variable {α τ σ κ : Type} {mode : Resumption} {depth : Nat} {c c' : Cursor}

/-! ## Records -/

/-- A record is read off an object whose members complete it, or off an array of its fields. -/
theorem read_record_eq_ok_iff {fields : Fields τ σ} {layout : Layout τ α} {a : α} :
    (Schema.record fields layout).read mode depth c = .ok a c' ↔
      ∃ d parts t c₁, depth = d + 1 ∧ a = layout.build parts ∧
        ((∃ read, Next '\x7b' c.rest t ∧
            members (fun name read => fields.readMember mode d name read) fields.unread
              ⟨t, c.warnings⟩ = .ok read c₁ ∧
            fields.complete read = .ok parts ∧ closeObject c₁ = .ok () c') ∨
          (Next '[' c.rest t ∧ fields.readElements mode d true ⟨t, c.warnings⟩ = .ok parts c₁ ∧
            closeArray c₁ = .ok () c')) := by
  rw [Schema.read]
  constructor
  · intro h
    rcases nil_or_next c.rest with hnil | ⟨ch, t, hnext⟩
    · rw [peek_bind_of_nil hnil] at h
      exact absurd h fail_ne_ok
    rw [peek_bind_of_next hnext] at h
    -- the brace or the bracket decides which of the two forms is read
    by_cases hbrace : ch = '\x7b'
    · subst hbrace
      obtain ⟨d, rfl, hbody⟩ := (nested_eq_ok_iff hnext).1 h
      obtain ⟨read, c₁, hloop, hbody⟩ := bind_eq_ok_iff.1 hbody
      obtain ⟨parts, c₂, hparts, hbody⟩ := bind_eq_ok_iff.1 hbody
      obtain ⟨u, c₃, hclose, hbody⟩ := bind_eq_ok_iff.1 hbody
      obtain ⟨rfl, rfl⟩ := pure_eq_ok_iff.1 hbody
      obtain ⟨hcomplete, rfl⟩ := extract_ofExcept_eq_ok_iff.1 hparts
      exact ⟨d, parts, t, c₁, rfl, rfl, .inl ⟨read, hnext, hloop, hcomplete, hclose⟩⟩
    by_cases hbracket : ch = '['
    · subst hbracket
      obtain ⟨d, rfl, hbody⟩ := (nested_eq_ok_iff hnext).1 h
      obtain ⟨parts, c₁, hparts, hbody⟩ := bind_eq_ok_iff.1 hbody
      obtain ⟨u, c₂, hclose, hbody⟩ := bind_eq_ok_iff.1 hbody
      obtain ⟨rfl, rfl⟩ := pure_eq_ok_iff.1 hbody
      exact ⟨d, parts, t, c₁, rfl, rfl, .inr ⟨hnext, hparts, hclose⟩⟩
    · have hnobrace : some ch = some '\x7b' → False := fun h => hbrace (Option.some.inj h)
      have hnobracket : some ch = some '[' → False := fun h => hbracket (Option.some.inj h)
      simp only [] at h
      exact absurd h fail_ne_ok
  · rintro ⟨d, parts, t, c₁, rfl, rfl, ⟨read, hnext, hloop, hcomplete, hclose⟩ |
      ⟨hnext, hparts, hclose⟩⟩
    · have hparts : extract (Extractor.ofExcept (fields.complete read)) c₁ = .ok parts c₁ :=
        extract_ofExcept_eq_ok_iff.2 ⟨hcomplete, rfl⟩
      rw [peek_bind_of_next hnext]
      apply (nested_eq_ok_iff hnext).2
      refine ⟨d, rfl, ?_⟩
      rw [bind_of_ok hloop, bind_of_ok hparts, bind_of_ok hclose]
      rfl
    · rw [peek_bind_of_next hnext]
      apply (nested_eq_ok_iff hnext).2
      refine ⟨d, rfl, ?_⟩
      rw [bind_of_ok hparts, bind_of_ok hclose]
      rfl

/-- Behind its brace a record is read member by member. -/
theorem read_record_of_brace {fields : Fields τ σ} {layout : Layout τ α} {t : Bytes}
    (h : Next '\x7b' c.rest t) :
    (Schema.record fields layout).read mode (depth + 1) c = (do
      let read ← members (fun name read => fields.readMember mode depth name read) fields.unread
      let parts ← extract (Extractor.ofExcept (fields.complete read))
      closeObject
      return layout.build parts : Reader α) ⟨t, c.warnings⟩ := by
  rw [Schema.read, peek_bind_of_next h]
  exact bind_of_ok (advance_of_next h)

/-- A member that is no field is passed over. -/
theorem readMember_nil_eq_ok_iff {name : String} {read read' : Unit} :
    Fields.nil.readMember mode depth name read c = .ok read' c' ↔
      ∃ item, Next ':' c.rest item ∧ skip ⟨item, c.warnings⟩ = .ok () c' := by
  rw [Fields.readMember]
  simp only [bind_eq_ok_iff, colon_eq_ok_iff, pure_eq_ok_iff]
  constructor
  · rintro ⟨u, c₁, ⟨item, hcolon, rfl⟩, v, c₂, hskip, -, rfl⟩
    exact ⟨item, hcolon, hskip⟩
  · rintro ⟨item, hcolon, hskip⟩
    exact ⟨(), _, ⟨item, hcolon, rfl⟩, (), c', hskip, trivial, rfl⟩

/-- A member is read for the first of the fields if it has its name and has not been read before, or
else for one of the others. -/
theorem readMember_cons_eq_ok_iff {name : String} {aliases : List String} {schema : Schema α}
    {presence : Presence α} {others : Fields τ σ} {given : String} {known : Option α} {read : σ}
    {read' : Option α × σ} :
    (Fields.cons name aliases schema presence others).readMember mode depth given (known, read) c =
        .ok read' c' ↔
      ((given = name ∨ given ∈ aliases) ∧ known = none ∧ ∃ item a, Next ':' c.rest item ∧
        schema.read mode depth ⟨item, c.warnings⟩ = .ok a c' ∧ read' = (some a, read)) ∨
      (¬ (given = name ∨ given ∈ aliases) ∧ ∃ taken,
        others.readMember mode depth given read c = .ok taken c' ∧ read' = (known, taken)) := by
  simp only [Fields.readMember]
  by_cases hname : given = name ∨ given ∈ aliases
  · rw [if_pos hname]
    cases known with
    -- a repeat is refused at its name
    | some b => exact iff_of_false throw_ne_ok (by simp [hname])
    | none =>
      simp only [bind_eq_ok_iff, colon_eq_ok_iff, pure_eq_ok_iff]
      grind
  · rw [if_neg hname]
    simp only [bind_eq_ok_iff, pure_eq_ok_iff]
    grind

/-- The fields of a record are read off an array that ends, as absent, or off its next element and
those behind it. -/
theorem readElements_cons_eq_ok_iff {name : String} {aliases : List String} {schema : Schema α}
    {presence : Presence α} {others : Fields τ σ} {first : Bool} {parts : α × τ} :
    (Fields.cons name aliases schema presence others).readElements mode depth first c =
        .ok parts c' ↔
      (∃ t, Next ']' c.rest t ∧ ∃ a rest, presence.absent? = some a ∧ others.absent? = some rest ∧
        parts = (a, rest) ∧ c' = ⟨unspaced c.rest, c.warnings⟩) ∨
      (∃ item, (∃ ch t, Next ch item t ∧ ch ≠ ']') ∧ Lead first c.rest item ∧
        ∃ a c₁, schema.read mode depth ⟨unspaced item, c.warnings⟩ = .ok a c₁ ∧
          ∃ rest, others.readElements mode depth false c₁ = .ok rest c' ∧ parts = (a, rest)) := by
  simp only [Fields.readElements]
  constructor
  · intro h
    obtain ⟨more, c₁, hmore, h⟩ := bind_eq_ok_iff.1 h
    rcases of_nextElement_eq_ok hmore with
      ⟨rfl, ⟨t, hbracket⟩, rfl⟩ | ⟨rfl, item, hlead, hnext, rfl⟩
    · simp only [Bool.false_eq_true, if_false] at h
      -- what the array leaves out is what the fields that are absent have
      cases ha : presence.absent? with
      | none =>
        simp only [ha] at h
        exact absurd h fail_ne_ok
      | some a =>
        cases hrest : others.absent? with
        | none =>
          simp only [ha, hrest] at h
          exact absurd h fail_ne_ok
        | some rest =>
          simp only [ha, hrest] at h
          obtain ⟨rfl, rfl⟩ := pure_eq_ok_iff.1 h
          exact .inl ⟨t, hbracket, a, rest, rfl, rfl, rfl, rfl⟩
    · simp only [if_true] at h
      obtain ⟨a, c₂, ha, h⟩ := bind_eq_ok_iff.1 h
      obtain ⟨rest, c₃, hrest, h⟩ := bind_eq_ok_iff.1 h
      obtain ⟨rfl, rfl⟩ := pure_eq_ok_iff.1 h
      exact .inr ⟨item, hnext, hlead, a, c₂, ha, rest, hrest, rfl⟩
  · rintro (⟨t, hbracket, a, rest, ha, hrest, rfl, rfl⟩ |
      ⟨item, ⟨ch, t, hnext, hne⟩, hlead, a, c₁, ha, rest, hrest, rfl⟩)
    · rw [bind_of_ok (nextElement_of_bracket hbracket)]
      simp only [Bool.false_eq_true, if_false, ha, hrest]
      rfl
    · rw [bind_of_ok (nextElement_of_lead hlead hnext hne)]
      simp only [if_true]
      rw [bind_of_ok ha, bind_of_ok hrest]
      rfl

/-! ## Extensible records -/

/-- The reader of one member of an extensible record, from behind its name on. -/
def readExtensible (mode : Resumption) (name : String) (known : Schema κ) (depth : Nat)
    (given : String) (read : Option (Option κ) × List (String × Json)) :
    Reader (Option (Option κ) × List (String × Json)) :=
  if given = name then
    match read.1 with
    | some _ => throw (.duplicateField name)
    | none => do
      colon
      return (some (← nullable (known.read mode depth)), read.2)
  else do
    colon
    return (read.1, (given, ← Reader.value depth) :: read.2)

/-- The known member may be null and stands at most once; the others are read as trees. -/
theorem readExtensible_eq_ok_iff {name : String} {known : Schema κ} {given : String}
    {read read' : Option (Option κ) × List (String × Json)} :
    readExtensible mode name known depth given read c = .ok read' c' ↔
      ∃ item, Next ':' c.rest item ∧
        ((given = name ∧ read.1 = none ∧ ∃ o,
            nullable (known.read mode depth) ⟨item, c.warnings⟩ = .ok o c' ∧
              read' = (some o, read.2)) ∨
          (given ≠ name ∧ ∃ json, Reader.value depth ⟨item, c.warnings⟩ = .ok json c' ∧
            read' = (read.1, (given, json) :: read.2))) := by
  rw [readExtensible]
  by_cases hname : given = name
  · rw [if_pos hname]
    obtain ⟨value, others⟩ := read
    cases value with
    | some o => exact iff_of_false throw_ne_ok (by simp [hname])
    | none =>
      simp only [bind_eq_ok_iff, colon_eq_ok_iff, pure_eq_ok_iff]
      grind
  · rw [if_neg hname]
    simp only [bind_eq_ok_iff, colon_eq_ok_iff, pure_eq_ok_iff]
    grind

/-- An extensible record is read off an object. -/
theorem read_extensible_eq_ok_iff {name : String} {known : Schema κ} {a : Extensible κ} :
    (Schema.extensible name known).read mode depth c = .ok a c' ↔
      ∃ d read t c₁, depth = d + 1 ∧ Next '\x7b' c.rest t ∧
        members (readExtensible mode name known d) (none, []) ⟨t, c.warnings⟩ = .ok read c₁ ∧
          closeObject c₁ = .ok () c' ∧
            a = ⟨read.1.getD none, .ofList (Json.resolveMembers read.2.reverse)⟩ := by
  rw [Schema.read]
  refine (peek_bind_eq_ok_iff '\x7b' fun o s ho => ?_).trans ?_
  · split
    · exact absurd rfl ho
    · exact fail_ne_ok
  constructor
  · rintro ⟨t, hnext, h⟩
    obtain ⟨d, rfl, hbody⟩ := (nested_eq_ok_iff hnext).1 h
    obtain ⟨read, c₁, hloop, hbody⟩ := bind_eq_ok_iff.1 hbody
    obtain ⟨u, c₂, hclose, hbody⟩ := bind_eq_ok_iff.1 hbody
    obtain ⟨rfl, rfl⟩ := pure_eq_ok_iff.1 hbody
    exact ⟨d, read, t, c₁, rfl, hnext, hloop, hclose, rfl⟩
  · rintro ⟨d, read, t, c₁, rfl, hnext, hloop, hclose, rfl⟩
    refine ⟨t, hnext, (nested_eq_ok_iff hnext).2 ⟨d, rfl, ?_⟩⟩
    exact (bind_of_ok hloop).trans (bind_of_ok hclose)

end CredentialCeremony
