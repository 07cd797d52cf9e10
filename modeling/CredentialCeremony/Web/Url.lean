import CredentialCeremony.Web.Host

set_option autoImplicit false

/-!
# Addresses

An absolute address in normal form, and how a text is resolved against one. Special schemes have a
host and a default `portNumber`, and take a backslash for a slash. A path is a list of segments,
from which `.` and `..` have been worked out, or an opaque text in which nothing is resolved.

`Url.resolve?` reads an address, against a base if one is given; `Url.text` writes it.

Main statement: `join?_empty` (an empty text leads to the base without its fragment).
-/

namespace CredentialCeremony

/-- The path of an address. -/
inductive UrlPath where
  | opaqueText (text : List Char)
  | segments (list : List (List Char))
  deriving DecidableEq, Repr, Inhabited

/-- An absolute address in normal form. -/
structure Url where
  scheme : List Char
  username : List Char
  password : List Char
  host : Option (List Char)
  portNumber : Option Nat
  path : UrlPath
  query : Option (List Char)
  fragment : Option (List Char)
  deriving DecidableEq, Repr, Inhabited

namespace Url

/-- The special schemes, each with its default `portNumber`. -/
def specialSchemes : List (String × Option Nat) :=
  [("http", some 80), ("https", some 443), ("ws", some 80), ("wss", some 443), ("ftp", some 21),
    ("file", none)]

/-- The scheme of files. -/
def file : List Char := "file".toList

/-- Whether a scheme is special. -/
def isSpecial (scheme : List Char) : Bool :=
  specialSchemes.any fun entry => entry.1.toList == scheme

/-- The default `portNumber` of a scheme. -/
def defaultPort? (scheme : List Char) : Option Nat :=
  (specialSchemes.find? fun entry => entry.1.toList == scheme).bind Prod.snd

/-- Whether a character separates the segments of a path. -/
def isSlash (special : Bool) (c : Char) : Bool := c == '/' || (special && c == '\\')

/-- Whether a text is a drive letter with its colon or bar. -/
def isDriveLetter : List Char → Bool
  | [letter, mark] => letter.isAlpha && (mark == ':' || mark == '|')
  | _ => false

/-- Whether a text starts with a drive letter that ends there. -/
def startsWithDriveLetter : List Char → Bool
  | letter :: mark :: rest =>
    isDriveLetter [letter, mark] &&
      match rest with
      | [] => true
      | c :: _ => ['/', '\\', '?', '#'].contains c
  | _ => false

/-- Whether a segment stands for the segment it is in. -/
def isSingleDot (segment : List Char) : Bool :=
  [".", "%2e"].any fun dots => dots.toList == segment.map Char.toLower

/-- Whether a segment stands for the one above. -/
def isDoubleDot (segment : List Char) : Bool :=
  ["..", ".%2e", "%2e.", "%2e%2e"].any fun dots => dots.toList == segment.map Char.toLower

/-- A path without its last segment; a drive letter stays. -/
def above (path : List (List Char)) : List (List Char) :=
  if path.getLast?.any isDriveLetter then path else path.dropLast

/-- Puts a segment behind a path; `last` tells that no slash follows it. A drive letter at the front
of the path of a file is written with a colon. -/
def pushSegment (scheme : List Char) (path : List (List Char)) (segment : List Char) (last : Bool) :
    List (List Char) :=
  let emptyIfLast : List (List Char) := if last then [[]] else []
  if isDoubleDot segment then above path ++ emptyIfLast
  else if isSingleDot segment then path ++ emptyIfLast
  else if scheme == file && path.isEmpty && isDriveLetter segment then
    path ++ [segment.take 1 ++ [':']]
  else path ++ [Percent.encode Percent.inPath segment]

/-- Puts the segments of a path text behind a path. -/
def pushSegments (scheme : List Char) (path : List (List Char)) :
    List (List Char) → List (List Char)
  | [] => path
  | [segment] => pushSegment scheme path segment true
  | segment :: rest => pushSegments scheme (pushSegment scheme path segment false) rest

/-- Reads a path text behind a path. -/
def pushText (scheme : List Char) (path : List (List Char)) (text : List Char) :
    List (List Char) :=
  pushSegments scheme path (Text.cut (isSlash (isSpecial scheme)) text)

/-- A path text without its first slash. -/
def withoutRoot (special : Bool) (text : List Char) : List Char :=
  match text with
  | c :: rest => if isSlash special c then rest else text
  | [] => []

/-- A path without the empty segments at its front, the last one apart. -/
def withoutEmptyFront : List (List Char) → List (List Char)
  | [] :: next :: rest => withoutEmptyFront (next :: rest)
  | path => path

/-- A text before its first query or fragment mark, and the rest. -/
def splitTail (text : List Char) : List Char × List Char :=
  text.span fun c => c != '?' && c != '#'

/-- The query and fragment of an address, whose marks stand at the front if it has them. -/
def withTail (u : Url) (tail : List Char) : Url :=
  let (front, rest) := tail.span (· != '#')
  let encoded := if isSpecial u.scheme then Percent.inSpecialQuery else Percent.inQuery
  let query :=
    match front with
    | '?' :: text => some (Percent.encode encoded text)
    | _ => u.query
  let fragment :=
    match rest with
    | '#' :: text => some (Percent.encode Percent.inFragment text)
    | _ => none
  { u with query, fragment }

/-- Reads a `portNumber`; the default of the scheme is left out. -/
def readPort? (scheme : List Char) (digits : List Char) : Option (Option Nat) :=
  if digits.isEmpty then some none
  else if ¬ digits.all Char.isDigit then none
  else
    let number : Nat := digits.foldl (fun n c => 10 * n + (c.toNat - 48)) 0
    if 65535 < number then none
    else some (if defaultPort? scheme = some number then none else some number)

/-- Cuts a host and its `portNumber` at the colon between them, which stands outside of brackets. -/
def splitPort (inside : Bool) : List Char → List Char × Option (List Char)
  | [] => ([], none)
  | c :: rest =>
    if c = ':' ∧ ¬ inside then ([], some rest)
    else
      let inside := if c = '[' then true else if c = ']' then false else inside
      let (host, digits) := splitPort inside rest
      (c :: host, digits)

/-- Cuts an authority at its last at sign. -/
def splitUserInfo (authority : List Char) : Option (List Char) × List Char :=
  if authority.contains '@' then
    let pieces := Text.cut (· == '@') authority
    (some (['@'].intercalate pieces.dropLast), pieces.getLastD [])
  else (none, authority)

/-- Reads what follows the two slashes of an authority. A backslash ends the digits behind the host
in every scheme, and begins a path there. -/
def readAuthority? (scheme : List Char) (text : List Char) : Option Url := do
  let special := isSpecial scheme
  let (authority, rest) := text.span fun c => !(isSlash special c || c == '?' || c == '#')
  let (userInfo, hostText) := splitUserInfo authority
  if userInfo = some [] ∧ hostText.isEmpty ∧ ¬ rest.isEmpty then none
  let (username, password) := (userInfo.getD []).span (· != ':')
  let password := password.drop 1
  let (host, digits) := splitPort false hostText
  if host.isEmpty ∧ (special ∨ digits.isSome ∨ ¬ username.isEmpty ∨ ¬ password.isEmpty) then none
  let host ← if host.isEmpty then some [] else Host.parse? special host
  let (digits, front) := (digits.getD []).span (· != '\\')
  let portNumber ← readPort? scheme digits
  let (pathText, tail) := splitTail (front ++ rest)
  let path :=
    if pathText.isEmpty ∧ ¬ special then [] else pushText scheme [] (withoutRoot special pathText)
  let encode := Percent.encode Percent.inUserInfo
  return withTail
    { scheme, username := encode username, password := encode password, host := some host
      portNumber, path := .segments path, query := none, fragment := none }
    tail

/-- The address of a base, with another path. -/
def withPath (base : Url) (path : List (List Char)) : Url :=
  { base with path := .segments path, query := none, fragment := none }

/-- The segments of an address whose path is not opaque. -/
def segments (u : Url) : List (List Char) :=
  match u.path with
  | .segments list => list
  | .opaqueText _ => []

/-- The address of a file on a host, its path text read behind a path. A file on a drive has no
host, and no path of a file starts with an empty segment, unless it is the only one. -/
def fileUrl (host : List Char) (path : List (List Char)) (text : List Char) : Url :=
  let (pathText, tail) := splitTail text
  let path := pushText file path pathText
  let host := if path.head?.any isDriveLetter then [] else host
  withTail
    { scheme := file, username := [], password := [], host := some host, portNumber := none
      path := .segments (withoutEmptyFront path), query := none, fragment := none }
    tail

/-- Reads what follows the two slashes of a file. A drive letter in place of a host belongs to the
path, and so does the slash behind a host that is not named. -/
def readFileHost? (text : List Char) : Option Url :=
  let (host, rest) := text.span fun c => !(isSlash true c || c == '?' || c == '#')
  if isDriveLetter host then some (fileUrl [] [] text)
  else if host.isEmpty then some (fileUrl [] [] rest)
  else (Host.parse? true host).map fun host =>
    if host == "localhost".toList then fileUrl [] [] rest
    else fileUrl host [] (withoutRoot true rest)

/-- Reads what follows the scheme of a file, against the base if that is a file too. -/
def readFile? (base : Option Url) (text : List Char) : Option Url :=
  let base := base.filter fun u => u.scheme == file
  let host := (base.bind Url.host).getD []
  let folder := (base.map segments).getD []
  match text with
  | [] => some ((base.map fun u => { u with fragment := none }).getD (fileUrl [] [] []))
  | c :: rest =>
    if isSlash true c then
      if rest.head?.any (isSlash true) then readFileHost? (rest.drop 1)
      else if startsWithDriveLetter rest then some (fileUrl [] [] rest)
      else if folder.head?.any isDriveLetter then some (fileUrl [] (folder.take 1) rest)
      else some (fileUrl host [] rest)
    else if startsWithDriveLetter text then some (fileUrl [] [] text)
    else match base with
      | none => some (fileUrl [] [] text)
      | some u =>
        if c = '?' ∨ c = '#' then some (withTail { u with fragment := none } text)
        else some (fileUrl host (above folder) text)

/-- Reads a text without a scheme against a base that is no file. Two slashes start an authority,
and more of them are left out only if a backslash is among the first two. -/
def readRelative? (base : Url) (text : List Char) : Option Url :=
  match text with
  | [] => some { base with fragment := none }
  | c :: rest =>
    if isSlash true c then
      if rest.head?.any (isSlash true) then
        readAuthority? base.scheme
          (if ['/', '/'].isPrefixOf text then text.drop 2 else text.dropWhile (isSlash true))
      else
        let (pathText, tail) := splitTail rest
        some (withTail (base.withPath (pushText base.scheme [] pathText)) tail)
    else if c = '?' ∨ c = '#' then some (withTail { base with fragment := none } text)
    else
      let (pathText, tail) := splitTail text
      let path := pushText base.scheme base.segments.dropLast pathText
      some (withTail (base.withPath path) tail)

/-- Reads what follows the scheme of an address that is not special. -/
def readOther? (scheme : List Char) (text : List Char) : Option Url :=
  let bare : Url :=
    { scheme, username := [], password := [], host := none, portNumber := none, path := .segments []
      query := none, fragment := none }
  match text with
  | '/' :: '/' :: rest => readAuthority? scheme rest
  | '/' :: rest =>
    let (pathText, tail) := splitTail rest
    some (withTail { bare with path := .segments (pushText scheme [] pathText) } tail)
  | text =>
    let (pathText, tail) := splitTail text
    let path := UrlPath.opaqueText (Percent.encode Percent.isControl pathText)
    some (withTail { bare with path } tail)

/-- The scheme at the front of a text, in lower case, and what follows its colon. -/
def splitScheme (text : List Char) : Option (List Char × List Char) :=
  let (scheme, rest) := text.span fun c => c.isAlphanum || c == '+' || c == '-' || c == '.'
  match scheme, rest with
  | first :: _, ':' :: rest => if first.isAlpha then some (scheme.map Char.toLower, rest) else none
  | _, _ => none

/-- A text without the controls and spaces at its ends and without tabs and line ends. -/
def cleaned (text : List Char) : List Char :=
  let isEdge (c : Char) : Bool := c.toNat ≤ 0x20
  let inner := ((text.dropWhile isEdge).reverse.dropWhile isEdge).reverse
  inner.filter fun c => !(['\t', '\n', '\r'].contains c)

/-- Reads a text as an address, against a base if one is given. -/
def resolve? (base : Option Url) (text : String) : Option Url :=
  let text := cleaned text.toList
  match splitScheme text with
  | some (scheme, rest) =>
    if scheme == file then readFile? base rest
    else if isSpecial scheme then
      -- with fewer than two slashes behind it, the scheme of the base adds nothing to a text
      let slashes := rest.takeWhile (isSlash true)
      match base.filter fun u => u.scheme == scheme && slashes.length < 2 with
      | some u => readRelative? u rest
      | none => readAuthority? scheme (rest.drop slashes.length)
    else readOther? scheme rest
  | none =>
    match base with
    | none => none
    | some u =>
      match u.path with
      | .opaqueText _ =>
        if text.head? = some '#' then some (withTail { u with fragment := none } text) else none
      | .segments _ =>
        if u.scheme == file then readFile? base text else readRelative? u text

/-- Reads an absolute address. -/
def parse? (text : String) : Option Url := resolve? none text

/-- Resolves a text against an address. -/
def join? (u : Url) (text : String) : Option Url := resolve? (some u) text

/-- An empty text leads to the base without its fragment. -/
theorem join?_empty {u : Url} {path : List (List Char)} (h : u.path = .segments path) :
    u.join? "" = some { u with fragment := none } := by
  have noScheme : splitScheme (cleaned "".toList) = none := rfl
  have nothing : cleaned "".toList = [] := rfl
  rw [join?, resolve?, noScheme, nothing]
  by_cases scheme : u.scheme == file
  · simp [h, scheme, readFile?, Option.filter]
  · simp [h, scheme, readRelative?]

/-- The text of an address up to its query. -/
def front (u : Url) : List Char :=
  let userInfo :=
    if u.username.isEmpty && u.password.isEmpty then []
    else u.username ++ (if u.password.isEmpty then [] else ':' :: u.password) ++ ['@']
  let authority :=
    match u.host with
    | none => []
    | some host =>
      ['/', '/'] ++ userInfo ++ host ++
        match u.portNumber with
        | none => []
        | some number => ':' :: Nat.toDigits 10 number
  let path :=
    match u.path with
    | .opaqueText text => text
    | .segments list =>
      -- without a host, an empty first segment would read as the slashes of one
      let guarded := u.host.isNone && 1 < list.length && list.head? == some []
      (if guarded then ['/', '.'] else []) ++ list.flatMap fun segment => '/' :: segment
  u.scheme ++ ':' :: authority ++ path

/-- The text of an address without its fragment. -/
def textWithoutFragment (u : Url) : String :=
  String.ofList (u.front ++ match u.query with
    | none => []
    | some query => '?' :: query)

/-- The text of an address. -/
def text (u : Url) : String :=
  u.textWithoutFragment ++ String.ofList (match u.fragment with
    | none => []
    | some fragment => '#' :: fragment)

end Url
end CredentialCeremony
