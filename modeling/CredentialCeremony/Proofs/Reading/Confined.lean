import CredentialCeremony.Proofs.Reading.Onward
import CredentialCeremony.Proofs.Reading.Widened
import CredentialCeremony.Proofs.Schema.Answer
import CredentialCeremony.Proofs.Schema.Strict

set_option autoImplicit false

/-!
# Readers that stay within a text

A reader is confined to a text if it does there what it does there whatever follows
(`Reader.Confined`): it ends in the same way, leaves the same and logs the same, whatever has been
logged before. So what it does in a document can be told from the text alone. Failures count like
results, since a failure may be passed over and the reader goes on from where it happened.
-/

namespace CredentialCeremony

open Grammar

namespace Reader

variable {α β : Type} {ch : Char} {text rest more : Bytes}

/-- A result with more text behind it, and with entries in the log in front of its own. -/
def widen (more : Bytes) (log : List TimeoutWarning) :
    EStateM.Result ReadError Cursor α → EStateM.Result ReadError Cursor α
  | .ok a c => .ok a ⟨c.rest ++ more, log ++ c.warnings⟩
  | .error e c => .error e ⟨c.rest ++ more, log ++ c.warnings⟩

/-- The first reader does on the text with more behind it what the second does on the text. -/
def Echoes (more : Bytes) (r r' : Reader α) (text : Bytes) : Prop :=
  ∀ log w, r ⟨text ++ more, log ++ w⟩ = widen more log (r' ⟨text, w⟩)

/-- The reader does on the text what it does there whatever follows, if that goes on with no
numeral. -/
def Confined (r : Reader α) (text : Bytes) : Prop := ∀ more, Stops more → Echoes more r r text

theorem widen_widen (m₁ m₂ : Bytes) (l₁ l₂ : List TimeoutWarning)
    (r : EStateM.Result ReadError Cursor α) :
    widen m₂ l₂ (widen m₁ l₁ r) = widen (m₁ ++ m₂) (l₂ ++ l₁) r := by
  cases r <;> simp [widen]

theorem left_widen (log : List TimeoutWarning) (r : EStateM.Result ReadError Cursor α) :
    left (widen more log r) = left r ++ more := by
  cases r <;> rfl

theorem Echoes.bind {r r' : Reader α} {f f' : α → Reader β} (h : Echoes more r r' text)
    (hf : ∀ a rest w w', r' ⟨text, w⟩ = .ok a ⟨rest, w'⟩ → Echoes more (f a) (f' a) rest) :
    Echoes more (r >>= f) (r' >>= f') text := by
  intro log w
  have hr := h log w
  cases hread : r' ⟨text, w⟩ with
  | ok a c =>
    rw [hread] at hr
    rw [bind_of_ok hr, bind_of_ok hread]
    exact hf a c.rest w c.warnings hread log c.warnings
  | error e c =>
    rw [hread] at hr
    rw [bind_of_error hr, bind_of_error hread]
    rfl

theorem Confined.bind {r : Reader α} {f : α → Reader β} (h : Confined r text)
    (hf : ∀ a rest w w', r ⟨text, w⟩ = .ok a ⟨rest, w'⟩ → Confined (f a) rest) :
    Confined (r >>= f) text := fun more hmore =>
  (h more hmore).bind fun a rest w w' hread => hf a rest w w' hread more hmore

theorem pure_confined (a : α) : Confined (pure a) text := fun _ _ _ _ => rfl

theorem throw_confined (e : ReadError) : Confined (throw e : Reader α) text := fun _ _ _ _ => rfl

theorem fail_confined : Confined (fail : Reader α) text := throw_confined _

theorem Confined.map {r : Reader α} (h : Confined r text) (f : α → β) :
    Confined (do return f (← r)) text :=
  h.bind fun a _ _ _ _ => pure_confined (f a)

/-- Behind a text that stops a numeral, whatever follows stops one, too. -/
theorem stops_append (h : Stops text) (hmore : Stops more) : Stops (text ++ more) := by
  cases text with
  | nil => exact hmore
  | cons b text => simpa [Stops] using h

/-- What is read in front of any text is read in front of a given one. -/
theorem Confined.append {r : Reader α} (h : Confined r text) (hrest : Stops rest) :
    Confined r (text ++ rest) := by
  intro more hmore log w
  have hlong := h (rest ++ more) (stops_append hrest hmore) log w
  have hshort := h rest hrest [] w
  rw [List.nil_append] at hshort
  rw [List.append_assoc, hlong, hshort, widen_widen, List.append_nil]

/-! ### Single characters -/

theorem unspaced_append (h : unspaced text ≠ []) :
    unspaced (text ++ more) = unspaced text ++ more := by
  rw [unspaced, List.dropWhile_append, if_neg (by simpa [unspaced] using h), unspaced]

theorem next_append (h : Next ch text rest) : Next ch (text ++ more) (rest ++ more) := by
  obtain ⟨b, hb, hch⟩ := h
  exact ⟨b, by rw [unspaced_append (by simp [hb]), hb, List.cons_append], hch⟩

theorem Echoes.peek_bind {f f' : Option Char → Reader α} (h : Next ch text rest)
    (hf : Echoes more (f (some ch)) (f' (some ch)) (unspaced text)) :
    Echoes more (peek >>= f) (peek >>= f') text := by
  intro log w
  have hsome : unspaced text ≠ [] := fun hnil => not_next_of_nil hnil h
  have hlong : (peek >>= f) ⟨text ++ more, log ++ w⟩ =
      f (some ch) ⟨unspaced (text ++ more), log ++ w⟩ := peek_bind_of_next (next_append h)
  have hshort : (peek >>= f') ⟨text, w⟩ = f' (some ch) ⟨unspaced text, w⟩ := peek_bind_of_next h
  rw [hlong, hshort, unspaced_append hsome]
  exact hf log w

theorem Echoes.advance_bind {r r' : Reader α} (h : Next ch text rest)
    (hr : Echoes more r r' rest) :
    Echoes more (do advance; r) (do advance; r') (unspaced text) := by
  obtain ⟨b, hb, -⟩ := h
  rw [hb]
  exact hr

theorem Confined.peek_bind {f : Option Char → Reader α} (h : Next ch text rest)
    (hf : Confined (f (some ch)) (unspaced text)) : Confined (peek >>= f) text :=
  fun more hmore => .peek_bind h (hf more hmore)

theorem Confined.advance_bind {r : Reader α} (h : Next ch text rest) (hr : Confined r rest) :
    Confined (do advance; r) (unspaced text) := fun more hmore => .advance_bind h (hr more hmore)

/-- A reader behind one given character. -/
theorem Confined.opening {f : Option Char → Reader α} {body : Reader α} (h : Next ch text rest)
    (hf : f (some ch) = do advance; body) (hbody : Confined body rest) :
    Confined (peek >>= f) text :=
  .peek_bind h (hf ▸ hbody.advance_bind h)

theorem advance_confined (h : Next ch text rest) : Confined advance (unspaced text) := by
  obtain ⟨b, hb, -⟩ := h
  rw [hb]
  exact fun _ _ _ _ => rfl

theorem colon_confined (h : Next ch text rest) : Confined colon text := by
  apply Confined.peek_bind h
  split
  · exact advance_confined h
  · exact fail_confined

theorem closeArray_confined (hsome : unspaced text ≠ []) : Confined closeArray text := by
  obtain ⟨ch, rest, h⟩ := (nil_or_next text).resolve_left hsome
  apply Confined.peek_bind h
  split
  · exact advance_confined h
  · exact .advance_bind h fail_confined
  · exact fail_confined

theorem closeObject_confined (hsome : unspaced text ≠ []) : Confined closeObject text := by
  obtain ⟨ch, rest, h⟩ := (nil_or_next text).resolve_left hsome
  apply Confined.peek_bind h
  split
  · exact advance_confined h
  · exact fail_confined

/-! ### Tokens and values of trees -/

theorem scan_confined {scanner : Bytes → Except Bytes (α × Bytes)}
    (h : ∀ more, Stops more → scanner (text ++ more) = widenScan more (scanner text)) :
    Confined (scan scanner) text := by
  intro more hmore log w
  simp only [scan, h more hmore]
  cases scanner text <;> rfl

theorem extract_confined {x : Extractor α} (h : x.Logs) : Confined (extract x) text := by
  intro more _ log w
  have hlong := h (log ++ w)
  rw [Extractor.behind_append, ← h w] at hlong
  simp only [extract, hlong]
  cases x w <;> rfl

theorem warn_confined (w : TimeoutWarning) : Confined (warn w) text := by
  intro more _ log w'
  simp [warn, widen]

theorem stringBody_confined (h : Escaped text rest) : Confined stringBody text := by
  refine (scan_confined fun more _ => scanString_append more h).bind fun taken rest w w' _ => ?_
  cases ofUtf8? taken with
  | some s => exact pure_confined s
  | none => exact fail_confined

theorem numeral_confined (h : Numeral text []) (negative : Bool) :
    Confined (numeral negative) text :=
  scan_confined fun _ hmore => scanNumeral_append hmore h negative

/-! ### Closings and tolerance -/

theorem Confined.closedBy {body : Reader α} {closing : Reader Unit} (hbody : Confined body text)
    (hclosing : ∀ w, Confined closing (left (body ⟨text, w⟩))) :
    Confined (closedBy body closing) text := by
  intro more hmore log w
  have hread := hbody more hmore log w
  have hclose := hclosing w more hmore log
  simp only [Reader.closedBy, hread]
  cases hshort : body ⟨text, w⟩ with
  | ok a c | error e c =>
    rw [hshort] at hclose
    have hclose := hclose c.warnings
    simp only [left] at hclose
    simp only [widen, hclose]
    cases closing c <;> rfl

/-- By itself or in front of what stops it, a value is the same. -/
theorem value_append (h : Value text []) (hmore : Stops more) : Value (text ++ more) more := by
  obtain ⟨value, htext, hvalue⟩ := h.spans
  rw [List.append_nil] at htext
  rw [htext]
  exact hvalue more hmore

/-- A failure behind the value is one behind the value whatever follows. -/
theorem Confined.tolerate {r : Reader α} (h : Confined r text) (hvalue : Value text []) :
    Confined (tolerate .behindValue r) text := by
  intro more hmore log w
  have hread := h more hmore log w
  have hskip : skip ⟨text, w⟩ = .ok () ⟨[], w⟩ := skip_eq_ok_iff.2 ⟨hvalue, rfl⟩
  have hpassed : skip ⟨text ++ more, log ++ w⟩ = .ok () ⟨more, log ++ w⟩ :=
    skip_eq_ok_iff.2 ⟨value_append hvalue hmore, rfl⟩
  simp only [Reader.tolerate, hread, hskip, hpassed]
  cases r ⟨text, w⟩ with
  | ok a c => rfl
  | error e c =>
    simp only [widen, List.append_left_eq_self]
    split <;> rfl

/-! ### Texts by themselves -/

/-- What a reader does on a text by itself, whatever has been logged before. -/
def apart (r : Reader α) (text : Bytes) : Extractor α := fun w =>
  match r ⟨text, []⟩ with
  | .ok a c => .ok a (w ++ c.warnings)
  | .error e c => .error e (w ++ c.warnings)

theorem apart_logs (r : Reader α) (text : Bytes) : (apart r text).Logs := by
  intro w
  unfold apart
  cases r ⟨text, []⟩ <;> rfl

theorem apart_map (r : Reader α) (f : α → β) (text : Bytes) :
    apart (do return f (← r)) text = (do return f (← apart r text)) := by
  funext w
  simp only [apart]
  cases hr : r ⟨text, []⟩ with
  | ok a c =>
    have hshort : apart r text w = .ok a (w ++ c.warnings) := by simp only [apart, hr]
    rw [bind_of_ok hr, bind_of_ok hshort]
    rfl
  | error e c =>
    have hshort : apart r text w = .error e (w ++ c.warnings) := by simp only [apart, hr]
    rw [bind_of_error hr, bind_of_error hshort]

/-- A reader that is confined to a text and takes it all does by itself what it does there. -/
theorem Confined.eq_ok_iff {r : Reader α} {front rest : Bytes} {w : List TimeoutWarning} {a : α}
    {c : Cursor} (h : Confined r front) (hrest : Stops rest)
    (hall : ∀ a c, r ⟨front, []⟩ = .ok a c → c.rest = []) :
    r ⟨front ++ rest, w⟩ = .ok a c ↔ apart r front w = .ok a c.warnings ∧ c.rest = rest := by
  have hread := h rest hrest w []
  rw [List.append_nil] at hread
  rw [hread, apart]
  cases hr : r ⟨front, []⟩ with
  | error e c' => simp [widen]
  | ok b c' =>
    obtain ⟨rest', w'⟩ := c
    simp only [widen, hall b c' hr, List.nil_append, EStateM.Result.ok.injEq, Cursor.mk.injEq]
    grind

end Reader
end CredentialCeremony
