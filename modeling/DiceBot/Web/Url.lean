import DiceBot.Web.Host

/-!
Web addresses: read leniently, as browsers do, and written in one form.
-/

namespace DiceBot.Web

/-- The rest of an address after scheme and host: segments, or for some schemes a text without
parts. -/
inductive Path where
  | segments (list : List (List Char))
  | plain (text : List Char)
  deriving DecidableEq, Repr

structure Url where
  scheme : List Char
  username : List Char
  password : List Char
  host : Option (List Char)
  port : Option Nat
  path : Path
  query : Option (List Char)
  fragment : Option (List Char)
  deriving DecidableEq, Repr

namespace Url

open Host (percentEncode isControl)

/-- The schemes of the web with the ports that they imply. -/
def defaultPort? (scheme : String) : Option (Option Nat) :=
  [("http", some 80), ("https", some 443), ("ws", some 80), ("wss", some 443), ("ftp", some 21),
    ("file", none)].lookup scheme

def inFragment (c : Char) : Bool := isControl c || c ∈ [' ', '"', '<', '>', '\x60']

def inPath (c : Char) : Bool := inFragment c || c ∈ ['#', '?', '\x7b', '\x7d']

def inUserinfo (c : Char) : Bool :=
  inPath c || c ∈ ['/', ':', ';', '=', '@', '[', '\\', ']', '^', '|']

def inQuery (c : Char) : Bool := isControl c || c ∈ [' ', '"', '#', '<', '>']

def inSpecialQuery (c : Char) : Bool := inQuery c || c = '\''

/-- The text without blanks and control characters at its ends, tabs and line breaks. -/
def clean (s : List Char) : List Char :=
  let dropEdge (s : List Char) := s.dropWhile fun c => c.toNat ≤ 32
  ((dropEdge (dropEdge s).reverse).reverse).filter fun c => c ∉ ['\t', '\n', '\r']

/-- A scheme in lower case and what follows its colon. -/
def takeScheme? (s : List Char) : Option (List Char × List Char) := do
  let (scheme, rest) ← Text.splitFirst ':' s
  if scheme.head?.any Char.isAlpha && scheme.all (fun c => c.isAlphanum || c ∈ ['+', '-', '.']) then
    some (scheme.map Char.toLower, rest)
  else none

/-- The text before the first character of a kind, and from it on. -/
def cut (stop : Char → Bool) (s : List Char) : List Char × List Char :=
  (s.takeWhile (!stop ·), s.dropWhile (!stop ·))

/-- The text before a mark and, if there is one, the text after it. -/
def cutMark (mark : Char) (s : List Char) : List Char × Option (List Char) :=
  match Text.splitFirst mark s with
  | some (before, after) => (before, some after)
  | none => (s, none)

/-- The text before and after the last occurrence of a character. -/
def splitLast (c : Char) (s : List Char) : Option (List Char × List Char) :=
  (Text.splitFirst c s.reverse).map fun (after, before) => (before.reverse, after.reverse)

/-- A port; an empty one is that of the scheme. -/
def readPort? (scheme : List Char) (s : List Char) : Option (Option Nat) :=
  if s = [] then some none
  else do
    let port ← (Text.readDigits? s).filter (· < Word.count16)
    return if defaultPort? (String.ofList scheme) = some (some port) then none else some port

/-- A host and the text of a port behind it. A colon in brackets belongs to the host. -/
def splitPort (s : List Char) : List Char × List Char :=
  let bracketed := if s.head? = some '[' then (cut (· = ']') s).1 else []
  let (host, rest) := cut (· = ':') (s.drop bracketed.length)
  (bracketed ++ host, rest.drop 1)

structure Authority where
  username : List Char
  password : List Char
  host : List Char
  port : Option Nat

/-- The part of an address that names user, host and port. -/
def readAuthority? (scheme : List Char) (special : Bool) (s : List Char) : Option Authority := do
  let (user, place) := (splitLast '@' s).elim (none, s) fun (user, place) => (some user, place)
  let (username, password) := cutMark ':' (user.getD [])
  let (name, port) := splitPort place
  if name = [] ∧ (special ∨ user.isSome ∨ place ≠ []) then none
  else
    let host ← if special then Host.read? name else Host.readOpaque? name
    return ⟨percentEncode inUserinfo username, percentEncode inUserinfo (password.getD []), host,
      ← readPort? scheme port⟩

/-- A segment with its dots written plainly. -/
def dots (segment : List Char) : List Char :=
  match segment with
  | [] => []
  | '%' :: '2' :: e :: rest =>
    if e = 'e' ∨ e = 'E' then '.' :: dots rest else '%' :: '2' :: e :: rest
  | '.' :: rest => '.' :: dots rest
  | rest => rest

/-- A letter and a colon or a bar: a drive of a file system. -/
def isDrive : List Char → Bool
  | [letter, mark] => letter.isAlpha && (mark = ':' || mark = '|')
  | _ => false

/-- Adds a segment to a path: one dot adds nothing, two dots take the last segment away. -/
def addSegment (file : Bool) (path : List (List Char)) (segment : List Char) (last : Bool) :
    List (List Char) :=
  if dots segment = ['.', '.'] then
    let shorter :=
      if file && path.length = 1 && path.head?.any isDrive then path else path.dropLast
    if last then shorter ++ [[]] else shorter
  else if dots segment = ['.'] then if last then path ++ [[]] else path
  else if file && path = [] && isDrive segment then [[segment.headD ' ', ':']]
  else path ++ [percentEncode inPath segment]

def addSegments (file : Bool) : List (List Char) → List (List Char) → List (List Char)
  | path, [] => path
  | path, [segment] => addSegment file path segment true
  | path, segment :: rest => addSegments file (addSegment file path segment false) rest

/-- The segments of a path. A slash at its start belongs to none of them. -/
def readPath (scheme : List Char) (special : Bool) (s : List Char) : Path :=
  let s := if special then s.map fun c => if c = '\\' then '/' else c else s
  match s with
  | [] => .segments (if special then [[]] else [])
  | '/' :: rest =>
    .segments (addSegments (scheme = "file".toList) [] (List.splitOn '/' rest))
  | rest => .segments (addSegments (scheme = "file".toList) [] (List.splitOn '/' rest))

/-- Host and path of an address of a file. A drive is no host, and this computer needs none. -/
def readFile? (s : List Char) : Option (List Char × Path) := do
  let scheme := "file".toList
  match s.map fun c => if c = '\\' then '/' else c with
  | '/' :: '/' :: rest =>
    let (name, path) := cut (· = '/') rest
    if isDrive name then some ([], readPath scheme true rest)
    else if name = [] then some ([], readPath scheme true path)
    else
      let host ← Host.read? name
      some (if host = "localhost".toList then [] else host, readPath scheme true path)
  | path => some ([], readPath scheme true path)

/-- The address that a text gives. It has to start with a scheme. -/
def parse? (text : String) : Option Url := do
  let (scheme, rest) ← takeScheme? (clean text.toList)
  let (rest, fragment) := cutMark '#' rest
  let (rest, query) := cutMark '?' rest
  let special := (defaultPort? (String.ofList scheme)).isSome
  let query := query.map (percentEncode (if special then inSpecialQuery else inQuery))
  let fragment := fragment.map (percentEncode inFragment)
  if scheme = "file".toList then
    let (host, path) ← readFile? rest
    return ⟨scheme, [], [], some host, none, path, query, fragment⟩
  else
    let isSlash (c : Char) : Bool := c = '/' || (special && c = '\\')
    let withHost (s : List Char) : Option Url := do
      let (authority, path) := cut isSlash s
      let a ← readAuthority? scheme special authority
      return ⟨scheme, a.username, a.password, some a.host, a.port, readPath scheme special path,
        query, fragment⟩
    if special then withHost (rest.dropWhile isSlash)
    else match rest with
      | '/' :: '/' :: rest => withHost rest
      | '/' :: _ => return ⟨scheme, [], [], none, none, readPath scheme false rest, query, fragment⟩
      | _ => return ⟨scheme, [], [], none, none, .plain (percentEncode isControl rest), query,
          fragment⟩

def Path.write : Path → List Char
  | .segments list => list.flatMap ('/' :: ·)
  | .plain text => text

/-- Path and query, as a request names them. -/
def target (u : Url) : String :=
  String.ofList (Path.write u.path ++ (u.query.elim [] ('?' :: ·)))

/-- User and password in front of a host. -/
def writeUser (u : Url) : List Char :=
  if u.username = [] ∧ u.password = [] then []
  else u.username ++ (if u.password = [] then [] else ':' :: u.password) ++ ['@']

/-- Two slashes at the start of a path, without a host, would be read as the start of one. -/
def guardPath : Path → List Char
  | .segments ([] :: _ :: _) => ['/', '.']
  | _ => []

/-- The text of an address. -/
def write (u : Url) : String :=
  String.ofList (u.scheme ++ [':'] ++
    (match u.host with
      | some host =>
        ['/', '/'] ++ u.writeUser ++ host ++ (u.port.elim [] fun p => ':' :: (toString p).toList)
      | none => guardPath u.path) ++
    Path.write u.path ++ (u.query.elim [] ('?' :: ·)) ++ (u.fragment.elim [] ('#' :: ·)))

/-- An address with more pairs behind those of its query. -/
def withPairs (u : Url) (pairs : List (String × String)) : Url :=
  let more := Form.encodePairs pairs
  { u with query := some (match u.query with
      | none | some [] => more
      | some query => query ++ ['&'] ++ more) }

end Url
end DiceBot.Web
