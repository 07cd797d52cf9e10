import CredentialCeremony.Proofs.Json.Legible
import CredentialCeremony.Proofs.Schema.Enclosed
import CredentialCeremony.Proofs.Schema.Frame

set_option autoImplicit false

/-!
# Records from their members apart

Where failures are passed over behind values only, a record is put together from its members, each
of which is read from its name and the text of its value by themselves
(`Schema.readStrictly_eq_ok_iff`). So one member more that is read whatever it is leaves everything
else of the record as it is: where the text is read behind values only
(`Schema.HasSlot.readStrictly_insert`), and where it is read through a tree
(`Schema.HasSlot.readValue_insert_of_objectWith`).
-/

namespace CredentialCeremony

open Reader Grammar

namespace Reader
variable {α β : Type} {mode : Resumption} {text rest : Bytes} {w : List TimeoutWarning}

theorem peek_unspaced_bind {f : Option Char → Reader α} :
    (peek >>= f) ⟨unspaced text, w⟩ = (peek >>= f) ⟨text, w⟩ := by
  have hpeek : peek ⟨unspaced text, w⟩ = peek ⟨text, w⟩ := by
    simp only [peek_apply, unspaced_unspaced]
  exact bind_congr_of_eq hpeek

theorem tolerate_unspaced {r : Reader α} (h : r ⟨unspaced text, w⟩ = r ⟨text, w⟩) :
    tolerate mode r ⟨unspaced text, w⟩ = tolerate mode r ⟨text, w⟩ := by
  cases mode with
  | inPlace => simp only [tolerate, attempt, h]
  | behindValue =>
    simp only [tolerate, h]
    cases r ⟨text, w⟩ with
    | ok a c => rfl
    | error e failed =>
      by_cases hvalue : ∃ rest, Value text rest
      · obtain ⟨rest, hvalue⟩ := hvalue
        have hskip : skip ⟨text, w⟩ = .ok () ⟨rest, w⟩ := skip_eq_ok_iff.2 ⟨hvalue, rfl⟩
        have hagain : skip ⟨unspaced text, w⟩ = .ok () ⟨rest, w⟩ :=
          skip_eq_ok_iff.2 ⟨value_unspaced_iff.2 hvalue, rfl⟩
        rw [hskip, hagain]
      · cases hskip : skip ⟨text, w⟩ with
        | ok u c => exact absurd ⟨c.rest, value_of_skip hskip⟩ hvalue
        | error e' c =>
          cases hagain : skip ⟨unspaced text, w⟩ with
          | ok u c => exact absurd ⟨c.rest, value_unspaced_iff.1 (value_of_skip hagain)⟩ hvalue
          | error e' c' => rfl

end Reader

/-- White space in front of a value is no part of it. -/
theorem Schema.read_unspaced {α : Type} (s : Schema α) {mode : Resumption} {depth : Nat}
    {text : Bytes} {w : List TimeoutWarning} :
    s.read mode depth ⟨unspaced text, w⟩ = s.read mode depth ⟨text, w⟩ := by
  cases s with
  | timeout =>
    have hvalue : value depth ⟨unspaced text, w⟩ = value depth ⟨text, w⟩ := by
      cases depth <;> exact peek_unspaced_bind
    rw [Schema.read]
    exact bind_congr_of_eq (tolerate_unspaced hvalue)
  | lenient _ _ | lenientOption _ =>
    rw [Schema.read]
    exact bind_congr_of_eq (tolerate_unspaced peek_unspaced_bind)
  | word | integer =>
    rw [Schema.read]
    exact bind_congr_of_eq peek_unspaced_bind
  | spelled _ | tolerant _ | listOrNull _ =>
    rw [Schema.read]
    exact bind_congr_of_eq peek_unspaced_bind
  | _ =>
    rw [Schema.read]
    exact peek_unspaced_bind

/-! ## Members by themselves -/

section Records

variable {α τ σ : Type}

/-- One member of a record, read from its name and the text of its value by themselves. An illegible
name is refused. -/
def Fields.takeMember (fields : Fields τ σ) (depth : Nat) (member : Option String × Bytes)
    (read : σ) : Extractor σ :=
  match member.1 with
  | none => Extractor.fail
  | some name => apart (fields.readMember .behindValue depth name read) (0x3A :: member.2)

theorem Fields.takeMember_logs (fields : Fields τ σ) (depth : Nat)
    (member : Option String × Bytes) (read : σ) :
    (fields.takeMember depth member read).Logs := by
  unfold takeMember
  cases member.1 with
  | none => exact Extractor.logs_throw _
  | some name => exact apart_logs _ _

/-- White space around the colon is no part of a member. -/
theorem Fields.readMember_of_unspaced {mode : Resumption} {depth : Nat} {name : String}
    {t₁ t₂ i₁ i₂ : Bytes} {w : List TimeoutWarning} {c : Cursor} (h₁ : Next ':' t₁ i₁)
    (h₂ : Next ':' t₂ i₂) (hitem : unspaced i₁ = unspaced i₂) : {τ σ : Type} →
    (fields : Fields τ σ) → {read read' : σ} →
    fields.readMember mode depth name read ⟨t₁, w⟩ = .ok read' c →
      fields.readMember mode depth name read ⟨t₂, w⟩ = .ok read' c
  | _, _, .nil, _, _, h => by
    obtain ⟨item, hcolon, hskip⟩ := readMember_nil_eq_ok_iff.1 h
    obtain ⟨-, rfl⟩ := hcolon.unique h₁
    obtain ⟨hvalue, hwarnings⟩ := skip_eq_ok_iff.1 hskip
    rw [← value_unspaced_iff, hitem, value_unspaced_iff] at hvalue
    exact readMember_nil_eq_ok_iff.2 ⟨i₂, h₂, skip_eq_ok_iff.2 ⟨hvalue, hwarnings⟩⟩
  | _, _, .cons _ _ schema _ others, (_, _), _, h => by
    rcases readMember_cons_eq_ok_iff.1 h with
      ⟨hname, hknown, item, a, hcolon, ha, hread⟩ | ⟨hname, taken, htaken, hread⟩
    · obtain ⟨-, rfl⟩ := hcolon.unique h₁
      rw [← schema.read_unspaced, hitem, schema.read_unspaced] at ha
      exact readMember_cons_eq_ok_iff.2 (.inl ⟨hname, hknown, i₂, a, h₂, ha, hread⟩)
    · have hagain := others.readMember_of_unspaced h₁ h₂ hitem htaken
      exact readMember_cons_eq_ok_iff.2 (.inr ⟨hname, taken, hagain, hread⟩)

/-- A member is read in an object as by itself. -/
theorem Fields.readMember_eq_ok_iff (fields : Fields τ σ) {depth : Nat} {name : String}
    {text item value behind : Bytes} {w : List TimeoutWarning} {read read' : σ} {c : Cursor}
    (hcolon : Next ':' text item) (hitem : unspaced item = value ++ behind)
    (hvalue : Value value []) (hbehind : Stops behind) :
    fields.readMember .behindValue depth name read ⟨text, w⟩ = .ok read' c ↔
      fields.takeMember depth (some name, value) read w = .ok read' c.warnings ∧
        c.rest = behind := by
  have hfront (rest : Bytes) : Next ':' (0x3A :: rest) rest := ⟨0x3A, rfl, rfl⟩
  have hagain : unspaced (value ++ behind) = unspaced item := by rw [← hitem, unspaced_unspaced]
  have hconfined := fields.member_encloses depth name read _ _ _ (hfront value) hvalue stops_nil
  have hall (read' : σ) (c : Cursor)
      (h : fields.readMember .behindValue depth name read ⟨0x3A :: value, []⟩ = .ok read' c) :
      c.rest = [] := by
    obtain ⟨item', hnext, hitem'⟩ := fields.member_sound depth _ _ _ _ _ h
    obtain ⟨-, rfl⟩ := hnext.unique (hfront value)
    exact hitem'.unique hvalue
  rw [takeMember, ← hconfined.eq_ok_iff hbehind hall]
  constructor
  · exact fields.readMember_of_unspaced hcolon (hfront _) hagain.symm
  · exact fields.readMember_of_unspaced (hfront _) hcolon hagain

/-- The members of an object are taken one by one, each by itself. -/
theorem Fields.taken_of_memberRounds (fields : Fields τ σ) {depth : Nat}
    {members : List (Option String × Bytes)} {names : List String} {first : Bool}
    {text rest : Bytes} {w : List TimeoutWarning} {read read' : σ} {c c' : Cursor}
    (h : MembersWith members first text rest)
    (hrounds : MemberRounds (fun name read => fields.readMember .behindValue depth name read) first
      read ⟨text, w⟩ names read' c) (hclose : closeObject c = .ok () c') :
    members.foldlM (fun read member => fields.takeMember depth member read) read w =
      .ok read' c'.warnings ∧ c'.rest = rest := by
  -- the rounds of the loop go along the members, since a text has one of each only
  induction members generalizing first text w read names with
  | nil =>
    cases names with
    | nil =>
      obtain ⟨rfl, -, rfl⟩ := hrounds
      obtain ⟨rest', hbrace, rfl⟩ := closeObject_eq_ok_iff.1 hclose
      obtain ⟨-, rfl⟩ := (next_unspaced_iff.1 hbrace).unique h
      exact ⟨rfl, rfl⟩
    | cons name names =>
      obtain ⟨start, quoted, _, _, _, hlead, hmark, -⟩ := hrounds
      exact absurd h (not_brace_of_lead hlead hmark)
  | cons member members ih =>
    obtain ⟨given, value⟩ := member
    obtain ⟨start, quoted, colon, item, behind, hlead, hmark, ⟨hescaped, hname⟩, hcolon, hitem,
      hvalue, hothers⟩ := h
    cases names with
    | nil =>
      obtain ⟨-, ⟨_, hbrace⟩, -⟩ := hrounds
      exact absurd hbrace (not_brace_of_lead hlead hmark)
    | cons name names =>
      obtain ⟨start', quoted', colon', read₁, ⟨rest₁, w₁⟩, hlead', hmark', hchars, hmember,
        hrounds⟩ := hrounds
      obtain rfl := hlead'.unique hlead
      obtain ⟨-, rfl⟩ := hmark'.unique hmark
      obtain rfl := hchars.escaped.unique hescaped
      obtain rfl := (hname name).2 hchars
      obtain ⟨htaken, hbehind⟩ := (fields.readMember_eq_ok_iff hcolon hitem hvalue
        (hothers.stops)).1 hmember
      obtain rfl : rest₁ = behind := hbehind
      rw [List.foldlM_cons, bind_of_ok htaken]
      exact ih hothers hrounds

/-- Members that are taken one by one are the rounds of the loop over the object. -/
theorem Fields.memberRounds_of_taken (fields : Fields τ σ) {depth : Nat}
    {members : List (Option String × Bytes)} {first : Bool} {text rest : Bytes}
    {w w' : List TimeoutWarning} {read read' : σ} (h : MembersWith members first text rest)
    (htaken : members.foldlM (fun read member => fields.takeMember depth member read) read w =
      .ok read' w') :
    ∃ names c, MemberRounds (fun name read => fields.readMember .behindValue depth name read) first
      read ⟨text, w⟩ names read' c ∧ names.length < text.length ∧
        closeObject c = .ok () ⟨rest, w'⟩ := by
  induction members generalizing first text w read with
  | nil =>
    obtain ⟨rfl, rfl⟩ := pure_eq_ok_iff.1 htaken
    have hbrace : Next '\x7d' text rest := h
    have hlength : 0 < text.length := Nat.zero_lt_of_lt hbrace.length_lt
    exact ⟨[], ⟨unspaced text, w⟩, ⟨rfl, ⟨rest, hbrace⟩, rfl⟩, hlength,
      closeObject_eq_ok_iff.2 ⟨rest, next_unspaced_iff.2 hbrace, rfl⟩⟩
  | cons member members ih =>
    obtain ⟨given, value⟩ := member
    obtain ⟨start, quoted, colon, item, behind, hlead, hmark, ⟨hescaped, hname⟩, hcolon, hitem,
      hvalue, hothers⟩ := h
    rw [List.foldlM_cons, bind_eq_ok_iff] at htaken
    obtain ⟨read₁, w₁, hmember, htaken⟩ := htaken
    cases given with
    | none => cases hmember
    | some name =>
      have hread := (fields.readMember_eq_ok_iff (c := ⟨behind, w₁⟩) hcolon hitem hvalue
        (hothers.stops)).2 ⟨hmember, rfl⟩
      obtain ⟨names, c, hrounds, hlength, hclose⟩ := ih hothers htaken
      refine ⟨name :: names, c, ⟨start, quoted, colon, read₁, ⟨behind, w₁⟩, hlead, hmark,
        (hname name).1 rfl, hread, hrounds⟩, ?_, hclose⟩
      have h₁ := hlead.length_le
      have h₂ := hmark.length_lt
      have h₃ := hescaped.length_lt
      have h₄ := hcolon.length_lt
      have h₅ := unspaced_length_le item
      rw [hitem, List.length_append] at h₅
      rw [List.length_cons]
      omega

/-- Behind values only, a record is read from its members by themselves. -/
theorem Schema.readStrictly_eq_ok_iff {fields : Fields τ σ} {layout : Layout τ α} {a : α}
    {members : List (Option String × Bytes)} {text : Bytes} {w : List TimeoutWarning}
    (h : ObjectWith members text) : (Schema.record fields layout).readStrictly text = ⟨.ok a, w⟩ ↔
      fields.assemble layout (fields.takeMember (maxDepth - 1)) members [] = .ok a w := by
  obtain ⟨inner, rest, hopen, hmembers, hspaces⟩ := h
  rw [Schema.readStrictly, run_eq_ok_iff]
  constructor
  · rintro ⟨c, hread, -, rfl⟩
    obtain ⟨d, parts, t, c₁, hdepth, rfl, hobject | ⟨hnext, -, -⟩⟩ := read_record_eq_ok_iff.1 hread
    · obtain ⟨read, hnext, hloop, hcomplete, hclose⟩ := hobject
      obtain rfl : maxDepth - 1 = d := by rw [hdepth, Nat.add_sub_cancel]
      obtain ⟨-, rfl⟩ := hnext.unique hopen
      obtain ⟨names, hrounds, -⟩ := members_eq_ok_iff.1 hloop
      obtain ⟨htaken, -⟩ := fields.taken_of_memberRounds hmembers hrounds hclose
      rw [Fields.assemble, bind_of_ok htaken, hcomplete]
      rfl
    · cases (hnext.unique hopen).1
  · intro hassemble
    obtain ⟨read, w₁, htaken, hassemble⟩ := bind_eq_ok_iff.1 hassemble
    obtain ⟨parts, w₂, hparts, hassemble⟩ := bind_eq_ok_iff.1 hassemble
    obtain ⟨rfl, rfl⟩ := pure_eq_ok_iff.1 hassemble
    obtain ⟨hcomplete, rfl⟩ := extractor_ofExcept_eq_ok_iff.1 hparts
    obtain ⟨names, c, hrounds, hlength, hclose⟩ := fields.memberRounds_of_taken hmembers htaken
    refine ⟨⟨rest, w₁⟩, read_record_eq_ok_iff.2 ⟨maxDepth - 1, parts, inner, c, rfl, rfl,
      .inl ⟨read, hopen, members_eq_ok_iff.2 ⟨names, hrounds, hlength⟩, hcomplete, hclose⟩⟩,
      unspaced_eq_nil_iff.2 hspaces, rfl⟩

end Records

namespace Fields.Slot

variable {β τ σ : Type} {name : String} {schema : Schema β} {presence : Presence β}
  {fields : Fields τ σ} {put : Option β → σ → σ} {place : β → τ → τ} {mode : Resumption}
  {depth : Nat}

/-- Off a text, too, a member of another name is taken as it would be without the field. -/
theorem readMember_put (h : fields.Slot name schema presence put place) {given : String}
    (hgiven : given ≠ name) (o : Option β) (read : σ) :
    fields.readMember mode depth given (put o read) =
      (do return put o (← fields.readMember mode depth given read)) := by
  induction h with
  | here =>
    obtain ⟨known, others⟩ := read
    simp [Fields.readMember, hgiven]
  | @there _ _ _ other aliases s p rest put place hother _ ih =>
    obtain ⟨known, others⟩ := read
    by_cases hown : given = other ∨ given ∈ aliases
    · cases known with
      | none => simp [Fields.readMember, hown]
      | some a => simp [Fields.readMember, hown]; rfl
    · simp [Fields.readMember, hown, ih others]

/-- The member of the field is read behind its colon and put into it. -/
theorem readMember_own (h : fields.Slot name schema presence put place) {read : σ}
    (hread : put none read = read) : fields.readMember mode depth name read = (do
      colon
      return put (some (← schema.read mode depth)) read) := by
  induction h with
  | here =>
    obtain ⟨known, others⟩ := read
    obtain rfl : none = known := congrArg Prod.fst hread
    simp [Fields.readMember]
  | @there _ _ _ other aliases s p rest put place hother _ ih =>
    obtain ⟨known, others⟩ := read
    have hothers : put none others = others := congrArg Prod.snd hread
    simp [Fields.readMember, hother, ih hothers]

theorem takeMember_put (h : fields.Slot name schema presence put place)
    {member : Option String × Bytes} (hmember : member.1 ≠ some name) (o : Option β) (read : σ) :
    fields.takeMember depth member (put o read) =
      (do return put o (← fields.takeMember depth member read)) := by
  obtain ⟨given, value⟩ := member
  cases given with
  | none => rfl
  | some given =>
    have hgiven : given ≠ name := fun h => hmember (congrArg some h)
    simp only [Fields.takeMember, h.readMember_put hgiven]
    exact apart_map _ _ _

theorem takeMember_own (h : fields.Slot name schema presence put place) (value : Bytes) {read : σ}
    (hread : put none read = read) : fields.takeMember depth (some name, value) read =
      (do return put (some (← apart (schema.read .behindValue depth) value)) read) := by
  have hcolon : apart (do colon; return put (some (← schema.read .behindValue depth)) read)
      (0x3A :: value) =
        apart (do return put (some (← schema.read .behindValue depth)) read) value := by
    funext w
    simp only [apart]
    rw [bind_of_ok (colon_at ⟨0x3A, rfl, rfl⟩ [])]
  simp only [Fields.takeMember, h.readMember_own hread, hcolon]
  exact apart_map _ _ _

end Fields.Slot

namespace Schema.HasSlot

variable {α β : Type} {s : Schema α} {name : String} {schema : Schema β} {presence : Presence β}
  {set : β → α → α} {front back : List (Option String × Bytes)} {value text short : Bytes}
  {absent b : β} {extra : List TimeoutWarning}

/-- One member more in a text that is read behind values only. -/
theorem readStrictly_insert (h : s.HasSlot name schema presence set)
    (habsent : presence.absent? = some absent) (hfront : ∀ member ∈ front, member.1 ≠ some name)
    (hback : ∀ member ∈ back, member.1 ≠ some name)
    (htext : ObjectWith (front ++ (some name, value) :: back) text)
    (hshort : ObjectWith (front ++ back) short)
    (hvalue : ∀ w, apart (schema.read .behindValue (maxDepth - 1)) value w = .ok b (w ++ extra)) :
    (s.readStrictly text).Adds (s.readStrictly short) (set b) extra := by
  obtain ⟨τ, σ, fields, layout, put, place, rfl, hslot, hset⟩ := h
  have hnames := List.forall_mem_append.2 ⟨hfront, hback⟩
  obtain ⟨hadds, hrefuses⟩ := hslot.assemble_insert_of_total habsent hset
    (fields.takeMember_logs (maxDepth - 1))
    (fun member hmember => hslot.takeMember_put (hnames member hmember))
    (fun read hread => hslot.takeMember_own value hread) hvalue
  constructor
  · intro a w hread
    obtain ⟨w₁, w₂, hw, hx⟩ := hadds a w ((readStrictly_eq_ok_iff hshort).1 hread)
    exact ⟨w₁, w₂, hw, (readStrictly_eq_ok_iff htext).2 hx⟩
  · intro a w hread
    obtain ⟨a, w, hx⟩ := hrefuses a w ((readStrictly_eq_ok_iff htext).1 hread)
    exact ⟨a, w, (readStrictly_eq_ok_iff hshort).2 hx⟩

/-- One member more in a text that is read through a tree. -/
theorem readValue_insert_of_objectWith {json : Json} (h : s.HasSlot name schema presence set)
    (habsent : presence.absent? = some absent) (hfront : ∀ member ∈ front, member.1 ≠ some name)
    (hback : ∀ member ∈ back, member.1 ≠ some name)
    (htext : ObjectWith (front ++ (some name, value) :: back) text)
    (hshort : ObjectWith (front ++ back) short) (hvalue : json.Spelled value [])
    (hdepth : json.depth < maxDepth)
    (hjson : ∀ w, schema.extract json.resolve w = .ok b (w ++ extra)) :
    (s.readValue text).Adds (s.readValue short) (set b) extra := by
  -- a tree of either text gives one of the other
  have hinsert {front' back' : List (String × Json)} (hfront' : MembersOf front front')
      (hback' : MembersOf back back')
      (hdepths : ∀ tree ∈ front' ++ back', tree.2.depth < maxDepth) :
      (s.readValue text).Adds (s.readValue short) (set b) extra := by
    have hlong : (Json.object (front' ++ (name, json) :: back')).IsTreeOf text := by
      refine (Json.isTreeOf_iff_of_objectWith htext).2
        ⟨_, rfl, List.rel_append hfront' (.cons ⟨rfl, hvalue⟩ hback'), ?_⟩
      rw [List.forall_mem_append] at hdepths ⊢
      rw [List.forall_mem_cons]
      exact ⟨hdepths.1, hdepth, hdepths.2⟩
    have hless : (Json.object (front' ++ back')).IsTreeOf short :=
      (Json.isTreeOf_iff_of_objectWith hshort).2 ⟨_, rfl, List.rel_append hfront' hback', hdepths⟩
    exact h.readValue_insert habsent (hfront'.ne hfront) (hback'.ne hback) hlong hless hjson
  constructor
  · intro a w hread
    obtain ⟨j, htree, -⟩ := readValue_eq_ok_iff.1 hread
    obtain ⟨trees, -, htrees, hdepths⟩ := (Json.isTreeOf_iff_of_objectWith hshort).1 htree
    obtain ⟨front', back', rfl, hfront', hback'⟩ := membersOf_append_iff.1 htrees
    exact (hinsert hfront' hback' hdepths).adds a w hread
  · intro a w hread
    obtain ⟨j, htree, -⟩ := readValue_eq_ok_iff.1 hread
    obtain ⟨trees, -, htrees, hdepths⟩ := (Json.isTreeOf_iff_of_objectWith htext).1 htree
    obtain ⟨front', tree, back', rfl, hfront', -, hback'⟩ := forall₂_insert_iff.1 htrees
    refine (hinsert hfront' hback' fun member hmember => hdepths member ?_).refuses a w hread
    rcases List.mem_append.1 hmember with hmem | hmem
    · exact List.mem_append_left _ hmem
    · exact List.mem_append_right _ (List.mem_cons_of_mem _ hmem)

end Schema.HasSlot
end CredentialCeremony
