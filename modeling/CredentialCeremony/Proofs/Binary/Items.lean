import CredentialCeremony.Proofs.Binary.Heads
import CredentialCeremony.Proofs.Traversal

set_option autoImplicit false

/-!
# Binary items that carry bytes

Each form of an item is a relation between what it carries and its bytes: a string item, whole or in
pieces (`Cbor.StringKind.Item`), an integer, plain, as a big number or behind tags (`Cbor.Integer`),
and an array of byte values (`Cbor.IntegerArray`). Each reader succeeds on exactly the inputs that
begin with an item of its form, and leaves what is behind it.

Main statement: bytes are read from exactly the inputs that begin with a carrier of them
(`Cbor.read?_eq_some_iff`).
-/

namespace CredentialCeremony.Cbor

/-! ## String items -/

/-- A kind of string items: its major type, and its heads with the lengths they tell. -/
structure StringKind where
  major : Nat
  head : Option Nat → Head
  lengthOf : Head → Option (Option Nat)
  major_lt : major < 8
  lengthOf_eq_some_iff : ∀ h length, lengthOf h = some length ↔ h = head length
  ofHead_eq_some_iff : ∀ length m argument,
    Head.of? m argument = some (head length) ↔ m = major ∧ argument = length
  head_ne_stop : ∀ length, head length ≠ .stop

namespace StringKind

/-- Byte strings. -/
def bytes : StringKind where
  major := 2
  head := .byteString
  lengthOf := Head.byteLength?
  major_lt := by decide
  lengthOf_eq_some_iff := by
    intro h length
    cases h <;> simp [Head.byteLength?]
  ofHead_eq_some_iff := by
    intro length m argument
    unfold Head.of?
    split <;> simp_all
  head_ne_stop := by simp

/-- Text strings. -/
def text : StringKind where
  major := 3
  head := .textString
  lengthOf := Head.textLength?
  major_lt := by decide
  lengthOf_eq_some_iff := by
    intro h length
    cases h <;> simp [Head.textLength?]
  ofHead_eq_some_iff := by
    intro length m argument
    unfold Head.of?
    split <;> simp_all
  head_ne_stop := by simp

variable {kind : StringKind} {input rest : Bytes}

theorem head?_eq_whole_iff {n : Nat} : head? input = some (kind.head (some n), rest) ↔
    ∃ head, NumberHead kind.major n head ∧ input = head ++ rest :=
  head?_eq_number_iff (fun n => kind.head (some n)) kind.major_lt
    (kind.ofHead_eq_some_iff (some n))

theorem head?_eq_pieces_iff : head? input = some (kind.head none, rest) ↔
    input = openHead kind.major :: rest :=
  head?_eq_open_iff kind.major_lt (kind.ofHead_eq_some_iff none)

end StringKind

/-- The mark at the end of an open item. -/
theorem head?_eq_stop_iff {input rest : Bytes} :
    head? input = some (.stop, rest) ↔ input = openHead 7 :: rest := by
  refine head?_eq_open_iff (by decide) fun m argument => ?_
  unfold Head.of?
  split <;> simp_all

/-- The pieces behind an open head with all that stands between them, up to the mark that closes the
head: pieces may stand behind further open heads. -/
inductive StringKind.Pieces (kind : StringKind) : (depth : Nat) → List Bytes → Bytes → Prop where
  | stop : kind.Pieces 0 [] [openHead 7]
  | leave {depth : Nat} {pieces : List Bytes} {behind : Bytes} :
      kind.Pieces depth pieces behind → kind.Pieces (depth + 1) pieces (openHead 7 :: behind)
  | enter {depth : Nat} {pieces : List Bytes} {behind : Bytes} :
      kind.Pieces (depth + 1) pieces behind →
        kind.Pieces depth pieces (openHead kind.major :: behind)
  | piece {depth : Nat} {piece : Bytes} {pieces : List Bytes} {head behind : Bytes} :
      NumberHead kind.major piece.length head → kind.Pieces depth pieces behind →
        kind.Pieces depth (piece :: pieces) (head ++ (piece ++ behind))

/-- A string item in its pieces: a single one behind its head, or any behind an open head. -/
inductive StringKind.Item (kind : StringKind) : List Bytes → Bytes → Prop where
  | whole {piece head : Bytes} : NumberHead kind.major piece.length head →
      kind.Item [piece] (head ++ piece)
  | open {pieces : List Bytes} {behind : Bytes} : kind.Pieces 0 pieces behind →
      kind.Item pieces (openHead kind.major :: behind)

section Strings

variable {kind : StringKind} {depth : Nat} {pieces : List Bytes} {input rest clock : Bytes}

/-- The pieces that are read stand in front of the rest. -/
theorem StringKind.pieces_of_read
    (h : pieces? kind.lengthOf clock depth input = some (pieces, rest)) :
    ∃ front, kind.Pieces depth pieces front ∧ input = front ++ rest := by
  induction clock generalizing depth input pieces rest with
  | nil => cases h
  | cons _ clock ih =>
    rw [pieces?] at h
    obtain ⟨⟨head, behind⟩, hhead, hrun⟩ := Option.bind_eq_some_iff.1 h
    dsimp only at hrun
    by_cases hstop : head = .stop
    · rw [if_pos hstop] at hrun
      subst hstop
      obtain rfl := head?_eq_stop_iff.1 hhead
      cases depth with
      | zero =>
        cases hrun
        exact ⟨[openHead 7], .stop, rfl⟩
      | succ depth =>
        obtain ⟨front, hfront, rfl⟩ := ih hrun
        exact ⟨openHead 7 :: front, .leave hfront, rfl⟩
    · rw [if_neg hstop] at hrun
      obtain ⟨length, hlength, hbehind⟩ := Option.bind_eq_some_iff.1 hrun
      obtain rfl := (kind.lengthOf_eq_some_iff _ _).1 hlength
      cases length with
      | none =>
        obtain rfl := kind.head?_eq_pieces_iff.1 hhead
        obtain ⟨front, hfront, rfl⟩ := ih hbehind
        exact ⟨openHead kind.major :: front, .enter hfront, rfl⟩
      | some n =>
        obtain ⟨head, hnumber, rfl⟩ := kind.head?_eq_whole_iff.1 hhead
        obtain ⟨⟨piece, behind⟩, hsplit, hpiece⟩ := Option.bind_eq_some_iff.1 hbehind
        obtain ⟨⟨more, rest⟩, hmore, hpieces⟩ := Option.bind_eq_some_iff.1 hpiece
        cases hpieces
        obtain ⟨rfl, rfl⟩ := split?_eq_some_iff.1 hsplit
        obtain ⟨front, hfront, rfl⟩ := ih hmore
        exact ⟨_, .piece hnumber hfront, by simp⟩

/-- Pieces are read where they stand, if there are as many rounds as bytes. -/
theorem StringKind.Pieces.read {front : Bytes} (h : kind.Pieces depth pieces front)
    (hclock : front.length ≤ clock.length) :
    pieces? kind.lengthOf clock depth (front ++ rest) = some (pieces, rest) := by
  induction h generalizing clock with
  | stop =>
    obtain ⟨tick, clock, rfl⟩ := List.exists_cons_of_length_pos hclock
    rw [pieces?, List.singleton_append, head?_eq_stop_iff.2 rfl]
    rfl
  | leave _ ih =>
    obtain ⟨tick, clock, rfl⟩ := List.exists_cons_of_length_pos (Nat.zero_lt_of_lt hclock)
    rw [pieces?, List.cons_append, head?_eq_stop_iff.2 rfl]
    exact ih (Nat.le_of_succ_le_succ hclock)
  | enter _ ih =>
    obtain ⟨tick, clock, rfl⟩ := List.exists_cons_of_length_pos (Nat.zero_lt_of_lt hclock)
    rw [pieces?, List.cons_append, kind.head?_eq_pieces_iff.2 rfl]
    dsimp only [bind, Option.bind_some]
    rw [if_neg (kind.head_ne_stop none), (kind.lengthOf_eq_some_iff _ _).2 rfl]
    exact ih (Nat.le_of_succ_le_succ hclock)
  | @piece depth piece pieces head behind hhead _ ih =>
    have hlength := List.length_pos_of_ne_nil hhead.ne_nil
    simp only [List.length_append] at hclock
    obtain ⟨tick, clock, rfl⟩ := List.exists_cons_of_length_pos (l := clock) (by omega)
    rw [List.length_cons] at hclock
    rw [pieces?, List.append_assoc, List.append_assoc, kind.head?_eq_whole_iff.2 ⟨head, hhead, rfl⟩]
    dsimp only [bind, Option.bind_some]
    rw [if_neg (kind.head_ne_stop _), (kind.lengthOf_eq_some_iff _ _).2 rfl]
    dsimp only [Option.bind_some]
    rw [split?_append rfl]
    dsimp only [Option.bind_some]
    rw [ih (by omega)]
    rfl

/-- A string item is read where it stands. -/
theorem StringKind.item_iff (kind : StringKind) :
    (∃ length behind, head? input = some (kind.head length, behind) ∧
      stringPieces? kind.lengthOf length behind = some (pieces, rest)) ↔
      ∃ item, kind.Item pieces item ∧ input = item ++ rest := by
  constructor
  · rintro ⟨length, behind, hhead, h⟩
    cases length with
    | none =>
      obtain rfl := kind.head?_eq_pieces_iff.1 hhead
      obtain ⟨front, hfront, rfl⟩ := kind.pieces_of_read h
      exact ⟨_, .open hfront, rfl⟩
    | some n =>
      obtain ⟨head, hnumber, rfl⟩ := kind.head?_eq_whole_iff.1 hhead
      obtain ⟨⟨piece, behind⟩, hsplit, h⟩ := Option.map_eq_some_iff.1 h
      cases h
      obtain ⟨rfl, rfl⟩ := split?_eq_some_iff.1 hsplit
      exact ⟨_, .whole hnumber, by simp⟩
  · rintro ⟨_, hitem, rfl⟩
    cases hitem with
    | @whole piece head hnumber =>
      rw [List.append_assoc]
      refine ⟨some piece.length, piece ++ rest, kind.head?_eq_whole_iff.2 ⟨head, hnumber, rfl⟩, ?_⟩
      rw [stringPieces?, split?_append rfl]
      rfl
    | @«open» _ behind hpieces =>
      refine ⟨none, behind ++ rest, kind.head?_eq_pieces_iff.2 rfl, ?_⟩
      exact hpieces.read (by simp)

end Strings

/-! ## Integers -/

/-- An integer that is at least zero: a plain one; a big one, which is a byte string behind tag 2
and below 2 ^ 128; or either behind other tags. -/
inductive Integer : Nat → Bytes → Prop where
  | plain {n : Nat} {head : Bytes} : NumberHead 0 n head → Integer n head
  | big {pieces : List Bytes} {mark item : Bytes} : NumberHead 6 2 mark →
      StringKind.bytes.Item pieces item → bigEndian pieces.flatten < 256 ^ 16 →
        Integer (bigEndian pieces.flatten) (mark ++ item)
  | tagged {n tag : Nat} {mark item : Bytes} : NumberHead 6 tag mark → tag ≠ 2 → tag ≠ 3 →
      Integer n item → Integer n (mark ++ item)

section Integers

variable {n : Nat} {input rest clock : Bytes}

theorem head?_eq_unsigned_iff :
    head? input = some (.unsigned n, rest) ↔ ∃ head, NumberHead 0 n head ∧ input = head ++ rest := by
  refine head?_eq_number_iff .unsigned (by decide) fun m argument => ?_
  unfold Head.of?
  split <;> simp_all

theorem head?_eq_tag_iff :
    head? input = some (.tag n, rest) ↔ ∃ head, NumberHead 6 n head ∧ input = head ++ rest := by
  refine head?_eq_number_iff .tag (by decide) fun m argument => ?_
  unfold Head.of?
  split <;> simp_all

theorem bigNumber?_eq_some_iff : bigNumber? input = some (n, rest) ↔
    ∃ pieces item, StringKind.bytes.Item pieces item ∧ bigEndian pieces.flatten < 256 ^ 16 ∧
      n = bigEndian pieces.flatten ∧ input = item ++ rest := by
  constructor
  · intro h
    obtain ⟨⟨head, behind⟩, hhead, hrun⟩ := Option.bind_eq_some_iff.1 h
    obtain ⟨length, hlength, hstring⟩ := Option.bind_eq_some_iff.1 hrun
    obtain ⟨⟨pieces, last⟩, hpieces, hnumber⟩ := Option.bind_eq_some_iff.1 hstring
    obtain rfl := (StringKind.bytes.lengthOf_eq_some_iff _ _).1 hlength
    obtain ⟨item, hitem, rfl⟩ := StringKind.bytes.item_iff.1 ⟨length, behind, hhead, hpieces⟩
    dsimp only at hnumber
    split at hnumber
    · rename_i hfits
      cases hnumber
      exact ⟨pieces, item, hitem, length_dropWhile_le_iff.1 hfits, bigEndian_dropWhile _, rfl⟩
    · cases hnumber
  · rintro ⟨pieces, item, hitem, hfits, rfl, rfl⟩
    obtain ⟨length, behind, hhead, hpieces⟩ :=
      StringKind.bytes.item_iff.2 ⟨item, hitem, (rfl : item ++ rest = _)⟩
    have hlength : Head.byteLength? (StringKind.bytes.head length) = some length :=
      (StringKind.bytes.lengthOf_eq_some_iff _ _).2 rfl
    have hpieces : stringPieces? Head.byteLength? length behind = some (pieces, rest) := hpieces
    rw [bigNumber?, hhead]
    dsimp only [bind, Option.bind_some]
    rw [hlength]
    dsimp only [Option.bind_some]
    rw [hpieces]
    dsimp only [Option.bind_some]
    rw [if_pos (length_dropWhile_le_iff.2 hfits), bigEndian_dropWhile]

/-- An integer that is read stands in front of the rest. -/
theorem integer_of_read (h : natural? clock input = some (n, rest)) :
    ∃ item, Integer n item ∧ input = item ++ rest := by
  induction clock generalizing input with
  | nil => cases h
  | cons _ clock ih =>
    rw [natural?] at h
    obtain ⟨⟨head, behind⟩, hhead, hrun⟩ := Option.bind_eq_some_iff.1 h
    dsimp only at hrun
    split at hrun
    · cases hrun
      obtain ⟨head, hnumber, rfl⟩ := head?_eq_unsigned_iff.1 hhead
      exact ⟨head, .plain hnumber, rfl⟩
    · obtain ⟨mark, hmark, rfl⟩ := head?_eq_tag_iff.1 hhead
      obtain ⟨pieces, item, hitem, hfits, rfl, rfl⟩ := bigNumber?_eq_some_iff.1 hrun
      exact ⟨mark ++ item, .big hmark hitem hfits, by simp⟩
    · cases hrun
    · rename_i tag hbig hnegative
      obtain ⟨mark, hmark, rfl⟩ := head?_eq_tag_iff.1 hhead
      obtain ⟨item, hitem, rfl⟩ := ih hrun
      exact ⟨mark ++ item, .tagged hmark hbig hnegative hitem, by simp⟩
    · cases hrun

theorem Integer.ne_nil {item : Bytes} (h : Integer n item) : item ≠ [] := by
  cases h with
  | plain hhead => exact hhead.ne_nil
  | big hmark => exact List.append_ne_nil_of_left_ne_nil hmark.ne_nil _
  | tagged hmark => exact List.append_ne_nil_of_left_ne_nil hmark.ne_nil _

/-- An integer is read where it stands, if there are as many rounds as bytes. -/
theorem Integer.read {item : Bytes} (h : Integer n item) (hclock : item.length ≤ clock.length) :
    natural? clock (item ++ rest) = some (n, rest) := by
  have hpos := List.length_pos_of_ne_nil h.ne_nil
  induction h generalizing clock with
  | plain hhead =>
    obtain ⟨tick, clock, rfl⟩ := List.exists_cons_of_length_pos (l := clock) (by omega)
    rw [natural?, head?_eq_unsigned_iff.2 ⟨_, hhead, rfl⟩]
    rfl
  | big hmark hitem hfits =>
    obtain ⟨tick, clock, rfl⟩ := List.exists_cons_of_length_pos (l := clock) (by omega)
    rw [natural?, List.append_assoc, head?_eq_tag_iff.2 ⟨_, hmark, rfl⟩]
    exact bigNumber?_eq_some_iff.2 ⟨_, _, hitem, hfits, rfl, rfl⟩
  | @tagged n tag mark item hmark hbig hnegative hitem ih =>
    obtain ⟨tick, clock, rfl⟩ := List.exists_cons_of_length_pos (l := clock) (by omega)
    have hlength := List.length_pos_of_ne_nil hmark.ne_nil
    simp only [List.length_append, List.length_cons] at hclock
    rw [natural?, List.append_assoc, head?_eq_tag_iff.2 ⟨_, hmark, rfl⟩]
    dsimp only [bind, Option.bind_some]
    split
    · rename_i hhead
      cases hhead
    · rename_i hhead
      exact absurd (Head.tag.inj hhead) hbig
    · rename_i hhead
      exact absurd (Head.tag.inj hhead) hnegative
    · rename_i hhead
      cases hhead
      exact ih (by omega) (List.length_pos_of_ne_nil hitem.ne_nil)
    · rename_i hother
      exact absurd rfl (hother tag)

/-- The first head of an integer is not the mark that ends an open item. -/
theorem Integer.head?_ne_stop {item behind : Bytes} (h : Integer n item) :
    head? (item ++ rest) ≠ some (.stop, behind) := by
  have htag {tag : Nat} {mark last : Bytes} (hmark : NumberHead 6 tag mark) :
      head? (mark ++ last) ≠ some (.stop, behind) := by
    rw [head?_eq_tag_iff.2 ⟨mark, hmark, rfl⟩]
    simp
  cases h with
  | plain hhead =>
    rw [head?_eq_unsigned_iff.2 ⟨_, hhead, rfl⟩]
    simp
  | big hmark =>
    rw [List.append_assoc]
    exact htag hmark
  | tagged hmark =>
    rw [List.append_assoc]
    exact htag hmark

end Integers

/-! ## Arrays of byte values -/

/-- The items of an array of integers, one for each byte. -/
def ByteItems (bytes : Bytes) (items : List Bytes) : Prop :=
  List.Forall₂ (fun b item => Integer b.toNat item) bytes items

section Arrays

variable {bytes : Bytes} {length : Option Nat} {input rest clock : Bytes}

/-- An array that is open, or has elements left, is read on with its next element unless the mark
that ends an open one comes next. -/
theorem byteValues?_cons {tick : UInt8} (hleft : length ≠ some 0)
    (hstop : ∀ behind, length = none → head? input ≠ some (.stop, behind)) :
    byteValues? (tick :: clock) length input = (natural? input input).bind fun (n, rest) =>
      if n < 256 then
        (byteValues? clock (length.map (· - 1)) rest).map fun more => UInt8.ofNat n :: more
      else none := by
  rw [byteValues?]
  · refine Option.bind_congr fun p _ => ?_
    dsimp only
    split
    · cases byteValues? clock (length.map (· - 1)) p.2 <;> rfl
    · rfl
  · exact hleft
  · exact fun behind hopen => hstop behind hopen

theorem byteValues?_stop (tick : UInt8) (clock behind : Bytes) :
    byteValues? (tick :: clock) none (openHead 7 :: behind) = some [] := by
  rw [byteValues?]
  · exact behind
  · exact head?_eq_stop_iff.2 rfl

/-- The elements of an array that is read stand in front of the rest. -/
theorem byteItems_of_read (h : byteValues? clock length input = some bytes) :
    ∃ items rest, ByteItems bytes items ∧
      (length = some bytes.length ∧ input = items.flatten ++ rest ∨
        length = none ∧ input = items.flatten ++ openHead 7 :: rest) := by
  induction clock generalizing length input bytes with
  | nil =>
    by_cases hleft : length = some 0
    · subst hleft
      cases h
      exact ⟨[], input, .nil, .inl ⟨rfl, rfl⟩⟩
    · rw [byteValues?] at h
      · cases h
      · exact hleft
  | cons tick clock ih =>
    by_cases hleft : length = some 0
    · subst hleft
      cases h
      exact ⟨[], input, .nil, .inl ⟨rfl, rfl⟩⟩
    by_cases hstop : ∃ behind, length = none ∧ head? input = some (.stop, behind)
    · obtain ⟨behind, rfl, hhead⟩ := hstop
      obtain rfl := head?_eq_stop_iff.1 hhead
      rw [byteValues?_stop] at h
      cases h
      exact ⟨[], behind, .nil, .inr ⟨rfl, rfl⟩⟩
    · rw [byteValues?_cons hleft fun behind hopen hhead => hstop ⟨behind, hopen, hhead⟩] at h
      obtain ⟨⟨n, behind⟩, hnumber, hrun⟩ := Option.bind_eq_some_iff.1 h
      obtain ⟨item, hitem, rfl⟩ := integer_of_read hnumber
      dsimp only at hrun
      split at hrun
      · rename_i hbyte
        obtain ⟨more, hmore, rfl⟩ := Option.map_eq_some_iff.1 hrun
        obtain ⟨items, rest, hitems, hend⟩ := ih hmore
        have hvalue : (UInt8.ofNat n).toNat = n := UInt8.toNat_ofNat_of_lt' hbyte
        refine ⟨item :: items, rest, .cons (hvalue.symm ▸ hitem) hitems, ?_⟩
        rw [List.flatten_cons, List.append_assoc, List.append_assoc, List.length_cons]
        rcases hend with ⟨hlength, rfl⟩ | ⟨hlength, rfl⟩
        · obtain ⟨k, rfl, hk⟩ := Option.map_eq_some_iff.1 hlength
          have hpos : k ≠ 0 := fun h => hleft (congrArg some h)
          exact .inl ⟨congrArg some (by omega), rfl⟩
        · exact .inr ⟨Option.map_eq_none_iff.1 hlength, rfl⟩
      · cases hrun

/-- The elements that are integers of one byte are taken, and the array is read on behind them. -/
theorem ByteItems.read {items : List Bytes} (h : ByteItems bytes items)
    (hlength : ∀ k, length = some k → bytes.length ≤ k) (hclock : bytes.length ≤ clock.length) :
    byteValues? clock length (items.flatten ++ rest) =
      (byteValues? (clock.drop bytes.length) (length.map (· - bytes.length)) rest).map (bytes ++ ·) := by
  induction h generalizing clock length with
  | nil =>
    simp
  | @cons b item bytes items hitem _ ih =>
    obtain ⟨tick, clock, rfl⟩ := List.exists_cons_of_length_pos (Nat.zero_lt_of_lt hclock)
    have hleft : length ≠ some 0 := fun h => absurd (hlength 0 h) (by simp)
    have hbehind : (length.map (· - 1)).map (· - bytes.length) =
        length.map (· - (bytes.length + 1)) := by
      cases length with
      | none => rfl
      | some k =>
        refine congrArg some ?_
        dsimp only
        omega
    have hothers (k : Nat) (hk : length.map (· - 1) = some k) : bytes.length ≤ k := by
      obtain ⟨j, rfl, rfl⟩ := Option.map_eq_some_iff.1 hk
      exact Nat.le_sub_of_add_le (hlength j rfl)
    have hbyte : b.toNat < 256 := b.toNat_lt
    rw [List.flatten_cons, List.append_assoc, byteValues?_cons hleft fun _ _ => hitem.head?_ne_stop,
      hitem.read (by simp), Option.bind_some]
    dsimp only
    rw [if_pos hbyte, UInt8.ofNat_toNat, ih hothers (Nat.le_of_succ_le_succ hclock), hbehind,
      Option.map_map]
    rfl

/-- There are no more elements than bytes. -/
theorem ByteItems.length_le {items : List Bytes} (h : ByteItems bytes items) :
    bytes.length ≤ items.flatten.length := by
  induction h with
  | nil => exact Nat.le_refl 0
  | cons hitem _ ih =>
    have hpos := List.length_pos_of_ne_nil hitem.ne_nil
    rw [List.flatten_cons, List.length_append, List.length_cons]
    omega

end Arrays

/-- An array of byte values: so many elements as its head tells, or any behind an open head and
before the mark that ends it. -/
inductive IntegerArray (bytes : Bytes) : Bytes → Prop where
  | counted {head : Bytes} {items : List Bytes} : NumberHead 4 bytes.length head →
      ByteItems bytes items → IntegerArray bytes (head ++ items.flatten)
  | open {items : List Bytes} : ByteItems bytes items →
      IntegerArray bytes (openHead 4 :: (items.flatten ++ [openHead 7]))

/-! ## Carriers -/

/-- An item that carries bytes: as a byte string, as a text string in base 64 of either alphabet, or
as an array. -/
inductive Carrier (bytes : Bytes) : Bytes → Prop where
  | string {pieces : List Bytes} {item : Bytes} : StringKind.bytes.Item pieces item →
      pieces.flatten = bytes → Carrier bytes item
  | text {texts : List String} {item : Bytes} : StringKind.text.Item (texts.map utf8) item →
      Bytes.ofText? (String.join texts) = some bytes → Carrier bytes item
  | array {item : Bytes} : IntegerArray bytes item → Carrier bytes item

section Carriers

variable {input rest : Bytes}

theorem head?_eq_array_iff {n : Nat} : head? input = some (.array (some n), rest) ↔
    ∃ head, NumberHead 4 n head ∧ input = head ++ rest := by
  refine head?_eq_number_iff (fun n => .array (some n)) (by decide) fun m argument => ?_
  unfold Head.of?
  split <;> simp_all

theorem head?_eq_open_array_iff :
    head? input = some (.array none, rest) ↔ input = openHead 4 :: rest := by
  refine head?_eq_open_iff (by decide) fun m argument => ?_
  unfold Head.of?
  split <;> simp_all

/-- The pieces of a text are texts. -/
theorem textOf?_eq_some_iff {pieces : List Bytes} {text : String} : textOf? pieces = some text ↔
    ∃ texts, pieces = texts.map utf8 ∧ text = String.join texts := by
  have hpieces (texts : List String) :
      pieces.mapM ofUtf8? = some texts ↔ pieces = texts.map utf8 := by
    rw [mapM_eq_some_iff]
    simp only [ofUtf8?_eq_some_iff]
    rw [← List.forall₂_map_right_iff (R := Eq), List.forall₂_eq_eq_eq]
  rw [textOf?, Option.bind_eq_bind, Option.bind_eq_some_iff]
  simp only [hpieces, Option.some.injEq, eq_comm]

/-- The elements behind the head of an array are read exactly if they make an array of the bytes. -/
theorem integerArray_iff {bytes : Bytes} :
    (∃ length behind, head? input = some (.array length, behind) ∧
      byteValues? input length behind = some bytes) ↔
      ∃ item rest, IntegerArray bytes item ∧ input = item ++ rest := by
  constructor
  · rintro ⟨length, behind, hhead, h⟩
    obtain ⟨items, rest, hitems, ⟨rfl, rfl⟩ | ⟨rfl, rfl⟩⟩ := byteItems_of_read h
    · obtain ⟨head, hnumber, rfl⟩ := head?_eq_array_iff.1 hhead
      exact ⟨_, rest, .counted hnumber hitems, (List.append_assoc _ _ _).symm⟩
    · obtain rfl := head?_eq_open_array_iff.1 hhead
      exact ⟨_, rest, .open hitems, by simp⟩
  · rintro ⟨_, rest, harray, rfl⟩
    cases harray with
    | @counted head items hnumber hitems =>
      have hrounds : bytes.length ≤ (head ++ (items.flatten ++ rest)).length := by
        simp only [List.length_append]
        have hitems := hitems.length_le
        omega
      rw [List.append_assoc]
      refine ⟨some bytes.length, items.flatten ++ rest, head?_eq_array_iff.2 ⟨head, hnumber, rfl⟩, ?_⟩
      rw [hitems.read (by simp) hrounds, Option.map_some, Nat.sub_self, byteValues?]
      simp
    | @«open» items hitems =>
      have hrounds : bytes.length <
          (openHead 4 :: (items.flatten ++ ([openHead 7] ++ rest))).length := by
        simp only [List.length_append, List.length_cons]
        have hitems := hitems.length_le
        omega
      rw [List.cons_append, List.append_assoc]
      refine ⟨none, _, head?_eq_open_array_iff.2 rfl, ?_⟩
      rw [hitems.read (by simp) (Nat.le_of_lt hrounds)]
      have hround : 0 < ((openHead 4 :: (items.flatten ++ ([openHead 7] ++ rest))).drop
          bytes.length).length := by
        rw [List.length_drop]
        omega
      obtain ⟨tick, clock, hclock⟩ := List.exists_cons_of_length_pos hround
      rw [hclock, Option.map_none, List.singleton_append, byteValues?_stop]
      simp

/-- Bytes are read from exactly the inputs that begin with a carrier of them. -/
theorem read?_eq_some_iff {bytes : Bytes} :
    read? input = some bytes ↔ ∃ item rest, Carrier bytes item ∧ input = item ++ rest := by
  have hbytes (length : Option Nat) : StringKind.bytes.head length = .byteString length := rfl
  have htext (length : Option Nat) : StringKind.text.head length = .textString length := rfl
  constructor
  · intro h
    obtain ⟨⟨head, behind⟩, hhead, hrun⟩ := Option.bind_eq_some_iff.1 h
    dsimp only at hrun
    split at hrun
    · obtain ⟨⟨pieces, rest⟩, hpieces, hflat⟩ := Option.bind_eq_some_iff.1 hrun
      obtain ⟨item, hitem, rfl⟩ := StringKind.bytes.item_iff.1 ⟨_, _, hhead, hpieces⟩
      exact ⟨item, rest, .string hitem (Option.some.inj hflat), rfl⟩
    · obtain ⟨⟨pieces, rest⟩, hpieces, hrun⟩ := Option.bind_eq_some_iff.1 hrun
      obtain ⟨text, htext, hread⟩ := Option.bind_eq_some_iff.1 hrun
      obtain ⟨texts, rfl, rfl⟩ := textOf?_eq_some_iff.1 htext
      obtain ⟨item, hitem, rfl⟩ := StringKind.text.item_iff.1 ⟨_, _, hhead, hpieces⟩
      exact ⟨item, rest, .text hitem hread, rfl⟩
    · obtain ⟨item, rest, harray, rfl⟩ := integerArray_iff.1 ⟨_, _, hhead, hrun⟩
      exact ⟨item, rest, .array harray, rfl⟩
    · cases hrun
  · rintro ⟨item, rest, hcarrier, rfl⟩
    cases hcarrier with
    | string hitem hflat =>
      obtain ⟨length, behind, hhead, hpieces⟩ :=
        StringKind.bytes.item_iff.2 ⟨item, hitem, (rfl : item ++ rest = _)⟩
      rw [hbytes] at hhead
      refine Option.bind_eq_some_iff.2 ⟨_, hhead, ?_⟩
      exact Option.bind_eq_some_iff.2 ⟨_, hpieces, congrArg some hflat⟩
    | text hitem hread =>
      obtain ⟨length, behind, hhead, hpieces⟩ :=
        StringKind.text.item_iff.2 ⟨item, hitem, (rfl : item ++ rest = _)⟩
      rw [htext] at hhead
      refine Option.bind_eq_some_iff.2 ⟨_, hhead, ?_⟩
      refine Option.bind_eq_some_iff.2 ⟨_, hpieces, ?_⟩
      exact Option.bind_eq_some_iff.2 ⟨_, textOf?_eq_some_iff.2 ⟨_, rfl, rfl⟩, hread⟩
    | array harray =>
      obtain ⟨length, behind, hhead, h⟩ := integerArray_iff.2 ⟨item, rest, harray, rfl⟩
      rw [read?, hhead]
      exact h

end Carriers

end CredentialCeremony.Cbor
