import CredentialCeremony.Reading.Error
import CredentialCeremony.Text.Blank

set_option autoImplicit false

/-!
# Dotted versions

A version is a list of segments. Versions are compared segment by segment, where a missing segment
counts as zero; two versions that differ in zeros at the end only are equal under this order but
keep their own texts.

Main statement: `Version.compare_self` (a version is equal to itself).
-/

namespace CredentialCeremony

/-- A dotted version number; its segments are as they were written. -/
structure Version where
  segments : List UInt64
  deriving DecidableEq, Repr, Inhabited

namespace Version

/-- A segment: an optional plus sign and at least one digit, with a value below 2 ^ 64. -/
def segment? (text : List Char) : Option UInt64 :=
  let digits := if text.head? = some '+' then text.tail else text
  if digits.isEmpty ∨ ¬ digits.all Char.isDigit then none
  else
    let value : Nat := digits.foldl (fun n c => 10 * n + (c.toNat - 48)) 0
    if value < 0x10000000000000000 then some (UInt64.ofNat value) else none

/-- The version that a text spells, blanks around it aside. -/
def ofText? (text : List Char) : Option Version :=
  ((Text.cut (· == '.') (Text.trim text)).mapM segment?).map Version.mk

/-- Reads a version; the error quotes the whole text. -/
def parse (text : String) : Except ReadError Version :=
  match ofText? text.toList with
  | some v => .ok v
  | none => .error (.notVersion text)

/-- The segments with dots between them. -/
def text (v : Version) : String := ".".intercalate (v.segments.map fun n => toString n.toNat)

/-- Compares segments from the front; a missing one counts as zero. -/
def compareSegments : List UInt64 → List UInt64 → Ordering
  | [], others => if others.all (· == 0) then .eq else .lt
  | n :: rest, others => (Ord.compare n (others.headD 0)).then (compareSegments rest others.tail)

/-- The order of versions. -/
def compare (v w : Version) : Ordering := compareSegments v.segments w.segments

/-- The order for those who allow for versions that cannot be compared; there are none. -/
def partialCompare (v w : Version) : Option Ordering := some (compare v w)

/-- Whether two versions are equal under the order. -/
def same (v w : Version) : Bool := compare v w == .eq

/-- The versions in ascending order; equal ones keep their places. -/
def sort (versions : List Version) : List Version :=
  versions.mergeSort fun v w => (compare v w).isLE

/-- The versions without those that equal the one kept before them. -/
def dropRepeats : List Version → List Version
  | [] => []
  | v :: rest => v :: go v rest
where
  /-- Goes on behind a version that has been kept. -/
  go (kept : Version) : List Version → List Version
    | [] => []
    | w :: rest => if same kept w then go kept rest else w :: go w rest

/-- The greatest version, the last one of equal ones. -/
def greatest? : List Version → Option Version
  | [] => none
  | v :: rest => some (rest.foldl (fun best w => if (compare best w).isLE then w else best) v)

theorem compareSegments_self (segments : List UInt64) :
    compareSegments segments segments = .eq := by
  induction segments with
  | nil => rfl
  | cons n rest ih => simp [compareSegments, ih, Ordering.then]

theorem compare_self (v : Version) : compare v v = .eq := compareSegments_self v.segments

end Version
end CredentialCeremony
