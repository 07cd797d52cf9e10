import CredentialCeremony.Availability.Version
import CredentialCeremony.Schema.Basic

set_option autoImplicit false

/-!
# User agents

The platform and the browser that a user-agent text announces. A product is a part of the text that
starts with its token and a slash; its version is the run of digits and dots behind the slash.
Browsers announce themselves under the names of others as well, so the tokens are looked for in a
fixed order, the most particular ones first.

Main statement: `UserAgent.occursIn_iff` (what the search for a word finds).
-/

namespace CredentialCeremony

/-- Families of operating systems. -/
inductive Platform where
  | windows
  | macOS
  | linux
  | android
  | ios
  | other
  deriving DecidableEq, Repr, Inhabited

/-- The names of the platforms; any other name is another platform. -/
def Platform.names : Choice Platform where
  names := [("windows", .windows), ("macos", .macOS), ("linux", .linux), ("android", .android),
    ("ios", .ios), ("other", .other)]
  nameOf
    | .windows => "windows"
    | .macOS => "macos"
    | .linux => "linux"
    | .android => "android"
    | .ios => "ios"
    | .other => "other"
  fallback := some .other
  nameOf_mem := by intro a; cases a <;> rfl

/-- Families of browsers. -/
inductive Browser where
  | chrome
  | edge
  | firefox
  | safari
  | opera
  | other
  deriving DecidableEq, Repr, Inhabited

/-- The names of the browsers; any other name is another browser. -/
def Browser.names : Choice Browser where
  names := [("chrome", .chrome), ("edge", .edge), ("firefox", .firefox), ("safari", .safari),
    ("opera", .opera), ("other", .other)]
  nameOf
    | .chrome => "chrome"
    | .edge => "edge"
    | .firefox => "firefox"
    | .safari => "safari"
    | .opera => "opera"
    | .other => "other"
  fallback := some .other
  nameOf_mem := by intro a; cases a <;> rfl

/-- What a user-agent text tells about its user agent. -/
structure UserAgent where
  platform : Platform
  browser : Browser
  version : Option Version
  deriving DecidableEq, Repr, Inhabited

namespace UserAgent

/-- Whether a text occurs in another. -/
def occursIn (text : List Char) : List Char → Bool
  | [] => text.isEmpty
  | c :: rest => text.isPrefixOf (c :: rest) || occursIn text rest

theorem occursIn_iff {text s : List Char} : occursIn text s = true ↔ text <:+: s := by
  induction s with
  | nil => simp [occursIn, List.isEmpty_iff]
  | cons c rest ih =>
    rw [occursIn, Bool.or_eq_true, List.isPrefixOf_iff_prefix, ih, List.infix_cons_iff]

/-- The words that give a platform away, in the order in which they are looked for. -/
def platformWords : List (String × Platform) := [
  ("Windows", .windows), ("Android", .android), ("iPhone", .ios), ("iPad", .ios), ("iPod", .ios),
  ("Macintosh", .macOS), ("Mac OS X", .macOS), ("Linux", .linux), ("X11", .linux)]

/-- The platform of the first word that occurs in the text. -/
def platformOf (text : List Char) : Platform :=
  match platformWords.find? fun entry => occursIn entry.1.toList text with
  | some entry => entry.2
  | none => .other

/-- The tokens of products that give a browser away, in the order in which they are looked for. -/
def browserTokens : List (String × Browser) := [
  ("Edg", .edge), ("EdgA", .edge), ("EdgiOS", .edge), ("Edge", .edge), ("OPR", .opera),
  ("OPiOS", .opera), ("Opera", .opera), ("Firefox", .firefox), ("FxiOS", .firefox),
  ("CriOS", .chrome), ("Chrome", .chrome)]

/-- What stands behind the token and slash of a product, if a part announces that product. -/
def announced? (product : String) (part : List Char) : Option (List Char) :=
  let mark := product.toList ++ ['/']
  if mark.isPrefixOf part then some (part.drop mark.length) else none

/-- The version text of the first part that announces a product. -/
def productVersion? (parts : List (List Char)) (product : String) : Option (List Char) :=
  (parts.findSome? (announced? product)).map fun rest =>
    rest.takeWhile fun c => c.isDigit || c == '.'

/-- The browser and its version text. Safari states its version as a product of its own. -/
def browserOf (parts : List (List Char)) : Browser × Option (List Char) :=
  let found := browserTokens.findSome? fun entry =>
    (productVersion? parts entry.1).map fun version => (entry.2, version)
  match found with
  | some (browser, version) => (browser, some version)
  | none =>
    -- the number behind the product Safari is a build number
    if (productVersion? parts "Safari").isSome then (.safari, productVersion? parts "Version")
    else (.other, none)

/-- Classifies a user-agent text. -/
def parse (text : String) : UserAgent :=
  let (browser, version) := browserOf (Text.parts text.toList)
  { platform := platformOf text.toList, browser, version := version.bind Version.ofText? }

end UserAgent
end CredentialCeremony
