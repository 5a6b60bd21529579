import DiceBot.Text.Numeral
import DiceBot.Web.Form
import DiceBot.Web.Punycode

/-!
Hosts of web addresses: names, and numbers of versions 4 and 6 of the protocol, in the one form that
each of them is written in.
-/

namespace DiceBot.Web.Host

def isForbidden (c : Char) : Bool :=
  c ∈ ['\x00', '\t', '\n', '\r', ' ', '#', '/', ':', '<', '>', '?', '@', '[', '\\', ']', '^', '|']

def isForbiddenInName (c : Char) : Bool :=
  isForbidden c || c.toNat < 32 || c = '%' || c.toNat = 127

/-- A part of a number of version 4: decimal, octal after a zero, hexadecimal after a zero and an
`x`. -/
def readPart? : List Char → Option Nat
  | [] => none
  | '0' :: x :: digits =>
    if x = 'x' ∨ x = 'X' then
      (digits.mapM Bytes.Hex.digit?).map fun ds => ds.foldl (fun n d => 16 * n + d) 0
    else if (x :: digits).all fun c => '0' ≤ c && c ≤ '7' then
      some (Nat.ofDigitChars 8 (x :: digits) 0)
    else none
  | digits => Text.readDigits? digits

/-- The parts of a host name, without an empty one at its end. -/
def parts (name : List Char) : List (List Char) :=
  let ps := List.splitOn '.' name
  if ps.length > 1 ∧ ps.getLast? = some [] then ps.dropLast else ps

/-- A name whose last part looks like a number has to be one. -/
def endsInNumber (name : List Char) : Bool :=
  match (parts name).getLast? with
  | some last => last ≠ [] && (last.all Char.isDigit || (readPart? last).isSome)
  | none => false

/-- A number of version 4 as four numbers. The last part fills the bytes that are left. -/
def readV4? (name : List Char) : Option (List Char) := do
  let ps := parts name
  if ps.length > 4 then none
  else
    let numbers ← ps.mapM readPart?
    let last ← numbers.getLast?
    let before := numbers.dropLast
    if before.any (255 < ·) ∨ (1 <<< (8 * (4 - before.length))) ≤ last then none
    else
      let rest := (List.range (4 - before.length)).reverse.map fun k => (last >>> (8 * k)) % 256
      some (['.'].intercalate ((before ++ rest).map fun n => (toString n).toList))

def readGroup? (s : List Char) : Option Nat :=
  if s.length = 0 ∨ 4 < s.length then none
  else (s.mapM Bytes.Hex.digit?).map fun ds => ds.foldl (fun n d => 16 * n + d) 0

/-- The two groups of four decimal numbers, which have no zeros in front. -/
def readQuad? (s : List Char) : Option (List Nat) := do
  let numbers ← (List.splitOn '.' s).mapM fun p =>
    if p.length > 3 ∨ (p.length > 1 ∧ p.head? = some '0') then none
    else (Text.readDigits? p).filter (· ≤ 255)
  match numbers with
  | [a, b, c, d] => some [256 * a + b, 256 * c + d]
  | _ => none

/-- Groups between colons, of which the last may be four decimal numbers. -/
def readGroups? (s : List Char) : Option (List Nat) :=
  if s = [] then some []
  else
    let pieces := List.splitOn ':' s
    match pieces.getLast? with
    | some last =>
      if last.contains '.' then do
        return (← pieces.dropLast.mapM readGroup?) ++ (← readQuad? last)
      else pieces.mapM readGroup?
    | none => none

/-- The text before and after the first two colons in a row. -/
def splitAtGap : List Char → Option (List Char × List Char)
  | ':' :: ':' :: rest => some ([], rest)
  | c :: rest => (splitAtGap rest).map fun (before, after) => (c :: before, after)
  | [] => none

/-- The eight groups of a number of version 6. Two colons stand for one or more groups of zeros. -/
def readV6? (s : List Char) : Option (List Nat) :=
  match splitAtGap s with
  | some (before, after) => do
    let before ← if before.contains '.' then none else readGroups? before
    let after ← readGroups? after
    if before.length + after.length > 7 then none
    else
      some (before ++ List.replicate (8 - before.length - after.length) 0 ++ after)
  | none => (readGroups? s).filter (·.length = 8)

/-- The length of the run of zeros at the start. -/
def zeroRun (groups : List Nat) : Nat := (groups.takeWhile (· = 0)).length

/-- The groups with two colons in place of the first longest run of more than one zero. -/
def writeV6 (groups : List Nat) : List Char :=
  let write (gs : List Nat) : List Char := [':'].intercalate (gs.map fun g => Nat.toDigits 16 g)
  let runs := (List.range groups.length).map fun i => zeroRun (groups.drop i)
  let longest := runs.max?.getD 0
  if longest < 2 then write groups
  else
    let start := (runs.findIdx? (· = longest)).getD 0
    write (groups.take start) ++ [':', ':'] ++ write (groups.drop (start + longest))

/-- A label of a host name in ASCII. Labels that are not are taken to be in lower case already. -/
def labelInAscii (label : List Char) : List Char :=
  let label := label.map Char.toLower
  if label.all fun c => c.toNat < 0x80 then label
  else ['x', 'n', '-', '-'] ++ Punycode.encode label

/-- The host that a text names, for addresses that need one. -/
def read? (s : List Char) : Option (List Char) :=
  if s.head? = some '[' then
    if s.getLast? = some ']' ∧ s.length > 1 then
      (readV6? ((s.drop 1).dropLast)).map fun groups => ['['] ++ writeV6 groups ++ [']']
    else none
  else do
    let name ← Bytes.ofUtf8? (percentDecode s)
    let name := ['.'].intercalate ((List.splitOn '.' name.toList).map labelInAscii)
    if name = [] ∨ name.any isForbiddenInName then none
    else if endsInNumber name then readV4? name
    else some name

/-- A character with the bytes that `encoded` picks as percent signs and digits. -/
def percentEncode (encoded : Char → Bool) (s : List Char) : List Char :=
  s.flatMap fun c =>
    if c.toNat ≥ 0x7f || encoded c then (Bytes.utf8 (String.singleton c)).flatMap percentByte
    else [c]

def isControl (c : Char) : Bool := c.toNat < 32

/-- The host that a text names, for addresses of which nothing is known. -/
def readOpaque? (s : List Char) : Option (List Char) :=
  if s.head? = some '[' then read? s
  else if s.any isForbidden then none
  else some (percentEncode isControl s)

end DiceBot.Web.Host
