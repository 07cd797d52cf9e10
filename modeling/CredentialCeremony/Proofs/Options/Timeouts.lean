import CredentialCeremony.Options.Resolved
import CredentialCeremony.Options.Server
import CredentialCeremony.Proofs.Schema.Apart
import CredentialCeremony.Proofs.Schema.Refined
import CredentialCeremony.Proofs.Schema.Timeout

set_option autoImplicit false

/-!
# The timeouts of a ceremony

The options of a server have a timeout for each ceremony, and those of a ceremony have one
(`TimeoutField`). Any value at all may stand for a timeout: it is read to its end, to a timeout or
to none, and logged once if it is neither a timeout nor null (`Schema.read_timeout_of_spelled`).

Main statements: whatever value stands for a timeout makes no difference to the rest of its document
(`timeouts_spoil_nothing`), and a whole number is read exactly, however it is written
(`whole_timeouts_exact`). The first is about every document that is an object, whether a tree can
hold its other members or not, unless the direct reader goes astray in it. Then a timeout may spoil
its document (`timeouts_of_illegible`).
-/

namespace CredentialCeremony

open Grammar (ObjectWith)

variable {α : Type}

namespace Timeout

/-- The timeout that a value is read as, if it is one. -/
def read? (json : Json) : Option UInt32 :=
  match ofJson json with
  | .ok millis? => millis?
  | .error _ => none

/-- What is logged about a value. -/
def warnings (json : Json) : List TimeoutWarning :=
  match ofJson json with
  | .ok _ => []
  | .error w => [w]

/-- Nothing is logged about null and about timeouts. -/
theorem warnings_eq_nil {json : Json} (h : json = .null ∨ ∃ millis, read? json = some millis) :
    warnings json = [] := by
  rcases h with rfl | ⟨millis, h⟩
  · rfl
  · unfold warnings
    unfold read? at h
    cases hjson : ofJson json with
    | ok millis? => rfl
    | error w =>
      rw [hjson] at h
      cases h

/-- Of all values, only null is no timeout and no error either. -/
theorem eq_null_of_ofJson {json : Json} (h : ofJson json = .ok none) : json = .null := by
  cases json with
  | null => rfl
  | number n =>
    rw [ofJson] at h
    cases hn : ofNumber? n with
    | none =>
      rw [hn] at h
      cases h
    | some millis =>
      rw [hn] at h
      cases h
  | string s =>
    rw [ofJson] at h
    cases hs : ofText s with
    | error w =>
      rw [hs] at h
      cases h
    | ok millis =>
      rw [hs] at h
      cases h
  | _ => cases h

/-- Any other value is logged once. -/
theorem exists_warning {json : Json} (hnull : json ≠ .null) (h : read? json = none) :
    ∃ warning, warnings json = [warning] := by
  unfold warnings
  unfold read? at h
  cases hjson : ofJson json with
  | error w => exact ⟨w, rfl⟩
  | ok millis? =>
    rw [hjson] at h
    cases h
    exact absurd (eq_null_of_ofJson hjson) hnull

/-- A whole number within 32 bits is the timeout it says. -/
theorem Decimal.readable {n : Nat} {json : Json} (h : Decimal false n json) (hn : n < 2 ^ 32) :
    read? json = some (UInt32.ofNat n) ∧ warnings json = [] := by
  have hnumber : ofWhole? false n = some (UInt32.ofNat n) := if_neg (by simpa using hn)
  rw [read?, warnings, h.ofJson_eq, hnumber]
  exact ⟨rfl, rfl⟩

/-- A whole number with a minus sign or above 32 bits is no timeout. -/
theorem Decimal.unreadable {negative : Bool} {n : Nat} {json : Json} (h : Decimal negative n json)
    (hn : negative = true ∨ 2 ^ 32 ≤ n) :
    read? json = none ∧ warnings json = [.notMilliseconds] := by
  have hnumber : ofWhole? negative n = none := if_pos hn
  rw [read?, warnings, h.ofJson_eq, hnumber]
  exact ⟨rfl, rfl⟩

/-- Any two ways to write a whole number are read as the same. -/
theorem Decimal.read?_eq {negative : Bool} {n : Nat} {x y : Json} (hx : Decimal negative n x)
    (hy : Decimal negative n y) : read? x = read? y := by
  rw [read?, read?, hx.ofJson_eq, hy.ofJson_eq]

/-- Names play no part in a timeout. -/
theorem ofJson_resolve (json : Json) : ofJson json.resolve = ofJson json := by
  cases json <;> rfl

end Timeout

/-- Every value is read as a timeout, if need be as none. -/
theorem Extractor.timeout_eq (json : Json) (w : List TimeoutWarning) :
    Extractor.timeout json w = .ok (Timeout.read? json) (w ++ Timeout.warnings json) := by
  unfold Extractor.timeout Timeout.read? Timeout.warnings
  cases Timeout.ofJson json with
  | ok millis? => exact congrArg (EStateM.Result.ok millis?) (List.append_nil w).symm
  | error warning => rfl

/-- Resolving the names within a value makes no difference to the timeout. -/
theorem Extractor.timeout_resolve_eq (json : Json) (w : List TimeoutWarning) :
    Extractor.timeout json.resolve w = .ok (Timeout.read? json) (w ++ Timeout.warnings json) := by
  have hread := Extractor.timeout_eq json.resolve w
  rwa [Timeout.read?, Timeout.warnings, Timeout.ofJson_resolve] at hread

/-- Wherever a value stands for a timeout, it is read to its end. -/
theorem Schema.read_timeout_of_spelled {json : Json} {place rest : Bytes} {depth : Nat}
    (mode : Resumption) (w : List TimeoutWarning) (hspelled : json.Spelled place rest)
    (hdepth : json.depth ≤ depth) : Schema.timeout.read mode depth ⟨place, w⟩ =
      .ok (Timeout.read? json) ⟨rest, w ++ Timeout.warnings json⟩ :=
  Reader.timeout_follows mode depth json place rest w _ _ hspelled hdepth rfl
    (Extractor.timeout_eq json w)

/-- The timeouts of a ceremony: the schema of the document, the name of the member and the field. -/
inductive TimeoutField : {α : Type} → Schema α → (name : String) → (get : α → Option UInt32) →
    (set : Option UInt32 → α → α) → Prop where
  | registration : TimeoutField WireOptions.schema "registrationTimeout"
      WireOptions.registrationTimeout (fun t options => { options with registrationTimeout := t })
  | authentication : TimeoutField WireOptions.schema "authenticationTimeout"
      WireOptions.authenticationTimeout
      (fun t options => { options with authenticationTimeout := t })
  | creation : TimeoutField CreationOptions.schema "timeout" CreationOptions.timeout
      (fun t options => { options with timeout := t })
  | request : TimeoutField RequestOptions.schema "timeout" RequestOptions.timeout
      (fun t options => { options with timeout := t })

namespace TimeoutField

variable {s : Schema α} {name : String} {get : α → Option UInt32} {set : Option UInt32 → α → α}

theorem get_set (h : TimeoutField s name get set) (t : Option UInt32) (a : α) :
    get (set t a) = t := by
  cases h <;> rfl

theorem hasSlot (h : TimeoutField s name get set) : s.HasSlot name .timeout .optional set := by
  cases h with
  | registration =>
    exact ⟨_, _, _, _, _, _, rfl, .there (by simp) (.there (by simp) (.there (by simp)
      (.there (by simp) .here))), fun _ _ => rfl⟩
  | authentication =>
    exact ⟨_, _, _, _, _, _, rfl, .there (by simp) (.there (by simp) (.there (by simp)
      (.there (by simp) (.there (by simp) .here)))), fun _ _ => rfl⟩
  | creation =>
    exact ⟨_, _, _, _, _, _, rfl, .there (by simp) (.there (by simp) (.there (by simp)
      (.there (by simp) .here))), fun _ _ => rfl⟩
  | request =>
    exact ⟨_, _, _, _, _, _, rfl, .there (by simp) .here, fun _ _ => rfl⟩

variable {front back : List (String × Json)} {json : Json} {text short : Bytes}
  {read : Bytes → Reading α}

/-- In either way of reading, a member for a timeout sets the field and adds its warning. -/
theorem adds (h : TimeoutField s name get set) (hfront : ∀ member ∈ front, member.1 ≠ name)
    (hback : ∀ member ∈ back, member.1 ≠ name)
    (htext : (Json.object (front ++ (name, json) :: back)).IsTreeOf text)
    (hshort : (Json.object (front ++ back)).IsTreeOf short)
    (hread : read = s.readText ∨ read = s.readValue) :
    (read text).Adds (read short) (set (Timeout.read? json)) (Timeout.warnings json) := by
  rcases hread with rfl | rfl
  · exact h.hasSlot.readText_insert rfl hfront hback htext hshort rfl (Extractor.timeout_eq json)
  · exact h.hasSlot.readValue_insert rfl hfront hback htext hshort
      (Extractor.timeout_resolve_eq json)

/-- A member for a timeout does so in any document in which the direct reader does not go astray. -/
theorem adds_of_objectWith (h : TimeoutField s name get set)
    {front back : List (Option String × Bytes)} {value : Bytes}
    (hfront : ∀ member ∈ front, member.1 ≠ some name)
    (hback : ∀ member ∈ back, member.1 ≠ some name) (hvalue : json.Fills value)
    (hdepth : json.depth < Reader.maxDepth)
    (htext : ObjectWith (front ++ (some name, value) :: back) text)
    (hshort : ObjectWith (front ++ back) short)
    (hread : (read = s.readText ∧ ¬ s.GoesAstray text ∧ ¬ s.GoesAstray short) ∨
      read = s.readValue) :
    (read text).Adds (read short) (set (Timeout.read? json)) (Timeout.warnings json) := by
  have hspelled := hvalue.spelled (htext.value (some name, value) (by simp))
  rcases hread with ⟨rfl, hlong, hless⟩ | rfl
  · have hapart (w : List TimeoutWarning) :
        Reader.apart (Schema.timeout.read .behindValue (Reader.maxDepth - 1)) value w =
          .ok (Timeout.read? json) (w ++ Timeout.warnings json) := by
      rw [Reader.apart,
        Schema.read_timeout_of_spelled .behindValue [] hspelled (Nat.le_sub_one_of_lt hdepth)]
      rfl
    exact (h.hasSlot.readStrictly_insert rfl hfront hback htext hshort hapart).congr
      (fun a w => Schema.readText_eq_ok_iff_readStrictly hlong)
      (fun a w => Schema.readText_eq_ok_iff_readStrictly hless)
  · exact h.hasSlot.readValue_insert_of_objectWith rfl hfront hback htext hshort hspelled
      hdepth (Extractor.timeout_resolve_eq json)

/-- What is read behind the change holds the timeout that was set. -/
theorem get_eq (h : TimeoutField s name get set) {long other : Reading α} {t : Option UInt32}
    {logged : List TimeoutWarning} (hadds : long.Adds other (set t) logged) {a : α}
    {w : List TimeoutWarning} (hlong : long = ⟨.ok a, w⟩) : get a = t := by
  obtain ⟨b, v, hother⟩ := hadds.refuses a w hlong
  obtain ⟨w₁, w₂, -, hadded⟩ := hadds.adds b v hother
  cases hadded.symm.trans hlong
  exact h.get_set t b

end TimeoutField

section Documents

variable {s : Schema α} {name : String} {get : α → Option UInt32} {set : Option UInt32 → α → α}
  {front back : List (String × Json)} {text short : Bytes} {read : Bytes → Reading α}

/-- Whatever value stands for a timeout, it is read to its end, and the document is read if and only
if it is without the member, in either way of reading. Then all other fields are the same, the
timeout is what the value is read as by itself, within 32 bits, and the value is logged once if it
is neither null nor a timeout. The documents are given by their members, among which there may be
illegible names and values that no tree can hold. -/
theorem timeouts_spoil_nothing (h : TimeoutField s name get set)
    {front back : List (Option String × Bytes)} {value : Bytes} {x : Json}
    (hfront : ∀ member ∈ front, member.1 ≠ some name)
    (hback : ∀ member ∈ back, member.1 ≠ some name) (hx : x.Fills value)
    (hdepth : x.depth < Reader.maxDepth)
    (htext : ObjectWith (front ++ (some name, value) :: back) text)
    (hshort : ObjectWith (front ++ back) short)
    (hread : (read = s.readText ∧ ¬ s.GoesAstray text ∧ ¬ s.GoesAstray short) ∨
      read = s.readValue) :
    (∀ mode depth place rest w, x.Spelled place rest → x.depth ≤ depth →
      Schema.timeout.read mode depth ⟨place, w⟩ =
        .ok (Timeout.read? x) ⟨rest, w ++ Timeout.warnings x⟩) ∧
    ((∃ a w, read text = ⟨.ok a, w⟩) ↔ ∃ a w, read short = ⟨.ok a, w⟩) ∧
    ∀ a w a' w', read short = ⟨.ok a, w⟩ → read text = ⟨.ok a', w'⟩ →
      a' = set (get a') a ∧ get a' = Timeout.read? x ∧
      (∀ millis, get a' = some millis → millis.toNat ≤ 4294967295) ∧
      ∃ w₁ w₂ logged, w = w₁ ++ w₂ ∧ w' = w₁ ++ logged ++ w₂ ∧
        ((x = .null ∨ ∃ millis, Timeout.read? x = some millis) → logged = []) ∧
        (x ≠ .null → Timeout.read? x = none → ∃ warning, logged = [warning]) := by
  have hadds := h.adds_of_objectWith hfront hback hx hdepth htext hshort hread
  refine ⟨?_, ?_, ?_⟩
  · intro mode depth place rest w hspelled hdepth
    exact Schema.read_timeout_of_spelled mode w hspelled hdepth
  · constructor
    · rintro ⟨a, w, hlong⟩
      exact hadds.refuses a w hlong
    · rintro ⟨a, w, hread⟩
      obtain ⟨w₁, w₂, -, hlong⟩ := hadds.adds a w hread
      exact ⟨_, _, hlong⟩
  · intro a w a' w' hread hlong
    obtain ⟨w₁, w₂, hw, hadded⟩ := hadds.adds a w hread
    cases hadded.symm.trans hlong
    refine ⟨?_, h.get_set _ _, ?_, w₁, w₂, _, hw, rfl, Timeout.warnings_eq_nil,
      Timeout.exists_warning⟩
    · rw [h.get_set]
    · intro millis _
      have hlt := millis.toNat_lt
      omega

/-- An object in the place of the timeout is logged once, and the challenge behind it is read,
though a number between them is out of the range of a double. -/
theorem timeouts_spoil_nothing_of_object : ∃ a warning,
    RequestOptions.schema.readText
      (utf8 "\x7b\"timeout\":\x7b\"ms\":[5]\x7d,\"x\":1e999,\"challenge\":\"AAEC\"\x7d") =
        ⟨.ok a, [warning]⟩ ∧
    a.challenge = [0, 1, 2] ∧ a.timeout = none := by
  have hx : (Json.object [("ms", .array [.number (.integer 5)])]).IsTreeOf
      (utf8 "\x7b\"ms\":[5]\x7d") := by decide +kernel
  have htext : ObjectWith ([] ++ (some "timeout", utf8 "\x7b\"ms\":[5]\x7d") ::
      [(some "x", utf8 "1e999"), (some "challenge", utf8 "\"AAEC\"")])
        (utf8 "\x7b\"timeout\":\x7b\"ms\":[5]\x7d,\"x\":1e999,\"challenge\":\"AAEC\"\x7d") := by
    decide +kernel
  have hshort : ObjectWith ([] ++ [(some "x", utf8 "1e999"), (some "challenge", utf8 "\"AAEC\"")])
      (utf8 "\x7b\"x\":1e999,\"challenge\":\"AAEC\"\x7d") := by decide +kernel
  have hlong : ¬ RequestOptions.schema.GoesAstray
      (utf8 "\x7b\"timeout\":\x7b\"ms\":[5]\x7d,\"x\":1e999,\"challenge\":\"AAEC\"\x7d") := by
    decide +kernel
  have hless : ¬ RequestOptions.schema.GoesAstray
      (utf8 "\x7b\"x\":1e999,\"challenge\":\"AAEC\"\x7d") := by decide +kernel
  obtain ⟨-, hiff, hsame⟩ := timeouts_spoil_nothing .request (by decide) (by decide) hx.1
    (by decide) htext hshort (.inl ⟨rfl, hlong, hless⟩)
  have hvalue : (RequestOptions.schema.readText
      (utf8 "\x7b\"x\":1e999,\"challenge\":\"AAEC\"\x7d")).value? =
        some ⟨[0, 1, 2], none, none, [], .preset, none⟩ := by
    decide +kernel
  have hquiet : (RequestOptions.schema.readText
      (utf8 "\x7b\"x\":1e999,\"challenge\":\"AAEC\"\x7d")).warnings = [] := by
    decide +kernel
  obtain ⟨w, hread⟩ := Reading.value?_eq_some_iff_exists.1 hvalue
  obtain rfl : w = [] := (congrArg Reading.warnings hread).symm.trans hquiet
  obtain ⟨a, w, hlong⟩ := hiff.2 ⟨_, _, hread⟩
  obtain ⟨ha, hget, -, w₁, w₂, logged, hnil, rfl, -, hlogged⟩ := hsame _ _ _ _ hread hlong
  obtain ⟨warning, rfl⟩ := hlogged (by decide) (by decide)
  obtain ⟨rfl, rfl⟩ := List.append_eq_nil_iff.1 hnil.symm
  refine ⟨a, warning, hlong, ?_, hget⟩
  rw [ha]

/-- A timeout may spoil its document where the direct reader goes astray. The reader goes on within
the timeout of a registration, where it finds a timeout of its own for the other ceremony; the text
in which it fails next restores the nesting of the document. So the document is read without a
timeout for the other ceremony in front, and is refused with one, as if that were repeated. -/
theorem timeouts_of_illegible :
    ∃ (front back : List (Option String × Bytes)) (text short : Bytes),
      ((front ++ (some "authenticationTimeout", utf8 "5") :: back).map Prod.fst).Nodup ∧
      ObjectWith (front ++ (some "authenticationTimeout", utf8 "5") :: back) text ∧
      ObjectWith (front ++ back) short ∧
      (Json.number (.integer 5)).IsTreeOf (utf8 "5") ∧
      WireOptions.schema.GoesAstray short ∧
      (WireOptions.schema.readText short).value?.isSome = true ∧
      (WireOptions.schema.readText text).value? = none := by
  let nested := "\x7b\"a\":1e999,\"authenticationTimeout\":7," ++
    "\"credentials\":[\x7b\"id\":\"AQ\",\"type\":\"\\ud800 ,\"\x7d]\x7d"
  let last := "[[\":0\x7d,[\"\n,\"AQ\"]]"
  refine ⟨[(some "relyingParty", utf8 "\x7b\"name\":\"E\"\x7d"),
      (some "challenge", utf8 "\"AAEC\"")],
    [(some "registrationTimeout", utf8 nested), (some ":0,", utf8 last)],
    utf8 ("\x7b\"relyingParty\":\x7b\"name\":\"E\"\x7d,\"challenge\":\"AAEC\"," ++
      "\"authenticationTimeout\":5,\"registrationTimeout\":" ++ nested ++ ",\":0,\":" ++ last ++
      "\x7d"),
    utf8 ("\x7b\"relyingParty\":\x7b\"name\":\"E\"\x7d,\"challenge\":\"AAEC\"," ++
      "\"registrationTimeout\":" ++ nested ++ ",\":0,\":" ++ last ++ "\x7d"),
    ?_, ?_, ?_, ?_, ?_, ?_, ?_⟩
  all_goals decide +kernel

/-- A whole number is read exactly, whether it is written as a number or as a text: from 0 to
2 ^ 32 - 1 the timeout is that number and nothing is logged about it, and with a minus sign or above
there is no timeout and one warning, the rest of the document being what it is without the member.
Two documents that write the same number in different ways are read as the same. -/
theorem whole_timeouts_exact (h : TimeoutField s name get set) {negative : Bool} {n : Nat}
    {x : Json} (hx : Timeout.Decimal negative n x)
    (hfront : ∀ member ∈ front, member.1 ≠ name) (hback : ∀ member ∈ back, member.1 ≠ name)
    (htext : (Json.object (front ++ (name, x) :: back)).IsTreeOf text)
    (hshort : (Json.object (front ++ back)).IsTreeOf short)
    (hread : read = s.readText ∨ read = s.readValue) :
    (negative = false → n ≤ 4294967295 →
      (∀ mode depth place rest w, x.Spelled place rest →
        Schema.timeout.read mode depth ⟨place, w⟩ = .ok (some (UInt32.ofNat n)) ⟨rest, w⟩) ∧
      (∀ a w, read text = ⟨.ok a, w⟩ → get a = some (UInt32.ofNat n)) ∧
      (read text).Adds (read short) (set (some (UInt32.ofNat n))) []) ∧
    (negative = true ∨ 4294967295 < n →
      (∀ mode depth place rest w, x.Spelled place rest →
        Schema.timeout.read mode depth ⟨place, w⟩ = .ok none ⟨rest, w ++ [.notMilliseconds]⟩) ∧
      (∀ a w, read text = ⟨.ok a, w⟩ → get a = none) ∧
      (read text).Adds (read short) (set none) [.notMilliseconds]) ∧
    ∀ y other, Timeout.Decimal negative n y →
      (Json.object (front ++ (name, y) :: back)).IsTreeOf other →
        (read other).value? = (read text).value? := by
  have hplace (mode : Resumption) (depth : Nat) (place rest : Bytes) (w : List TimeoutWarning)
      (hspelled : x.Spelled place rest) : Schema.timeout.read mode depth ⟨place, w⟩ =
        .ok (Timeout.read? x) ⟨rest, w ++ Timeout.warnings x⟩ :=
    Schema.read_timeout_of_spelled mode w hspelled (hx.depth_eq ▸ Nat.zero_le depth)
  have hadds := h.adds hfront hback htext hshort hread
  refine ⟨?_, ?_, ?_⟩
  · rintro rfl hn
    obtain ⟨hmillis, hwarnings⟩ := hx.readable (Nat.lt_succ_of_le hn)
    rw [hmillis, hwarnings] at hadds
    simp only [hmillis, hwarnings, List.append_nil] at hplace
    exact ⟨hplace, fun a w hlong => h.get_eq hadds hlong, hadds⟩
  · intro hn
    obtain ⟨hnone, hwarnings⟩ := hx.unreadable hn
    rw [hnone, hwarnings] at hadds
    simp only [hnone, hwarnings] at hplace
    exact ⟨hplace, fun a w hlong => h.get_eq hadds hlong, hadds⟩
  · intro y other hy hother
    have hadds' := h.adds hfront hback hother hshort hread
    rw [hadds.value?_eq, hadds'.value?_eq, hx.read?_eq hy]

/-- Nine seconds in a text, with all that may stand around the digits, are the number, and minus
zero is no timeout. -/
theorem whole_timeouts_exact_of_text :
    (∀ a w, RequestOptions.schema.readText
      (utf8 "\x7b\"challenge\":\"AAEC\",\"timeout\":\" +009000 \"\x7d") = ⟨.ok a, w⟩ →
        a.timeout = some 9000) ∧
    (RequestOptions.schema.readText
      (utf8 "\x7b\"challenge\":\"AAEC\",\"timeout\":9000\x7d")).value? =
      (RequestOptions.schema.readText
        (utf8 "\x7b\"challenge\":\"AAEC\",\"timeout\":\" +009000 \"\x7d")).value? ∧
    (∀ a w, RequestOptions.schema.readText
      (utf8 "\x7b\"challenge\":\"AAEC\",\"timeout\":-0\x7d") = ⟨.ok a, w⟩ → a.timeout = none) := by
  have hshort : (Json.object ([("challenge", .string "AAEC")] ++ [])).IsTreeOf
      (utf8 "\x7b\"challenge\":\"AAEC\"\x7d") := by decide +kernel
  have hspelled : (Json.object ([("challenge", .string "AAEC")] ++
      ("timeout", .string " +009000 ") :: [])).IsTreeOf
        (utf8 "\x7b\"challenge\":\"AAEC\",\"timeout\":\" +009000 \"\x7d") := by decide +kernel
  have hnumber : (Json.object ([("challenge", .string "AAEC")] ++
      ("timeout", .number (.integer 9000)) :: [])).IsTreeOf
        (utf8 "\x7b\"challenge\":\"AAEC\",\"timeout\":9000\x7d") := by decide +kernel
  have hminus : (Json.object ([("challenge", .string "AAEC")] ++
      ("timeout", .number (.double (.zero true))) :: [])).IsTreeOf
        (utf8 "\x7b\"challenge\":\"AAEC\",\"timeout\":-0\x7d") := by decide +kernel
  have hspelling : String.ofList ([' '] ++
      (['+'] ++ (List.replicate 2 '0' ++ Nat.toDigits 10 9000)) ++ [' ']) = " +009000 " := by
    decide +kernel
  have hdecimal : Timeout.Decimal false 9000 (.string " +009000 ") := by
    have hblank : ∀ c ∈ [' '], Text.isBlank c = true := List.forall_mem_singleton.2 rfl
    rw [← hspelling]
    exact .text hblank (by decide) hblank
  have hdigits : Timeout.Decimal false 9000 (.number (.integer 9000)) :=
    .of_wholeNumber (by decide)
  have hzero : Timeout.Decimal true 0 (.number (.double (.zero true))) := by
    have hwhole : Number.double (.zero true) = wholeNumber true 0 := by decide +kernel
    rw [hwhole]
    exact .of_wholeNumber (by decide)
  obtain ⟨hexact, -, hsame⟩ := whole_timeouts_exact .request hdecimal (by decide) (by decide)
    hspelled hshort (.inl rfl)
  obtain ⟨-, hnone, -⟩ := whole_timeouts_exact .request hzero (by decide) (by decide) hminus hshort
    (.inl rfl)
  exact ⟨(hexact rfl (by decide)).2.1, hsame _ _ hdigits hnumber, (hnone (.inl rfl)).2.1⟩

end Documents
end CredentialCeremony
