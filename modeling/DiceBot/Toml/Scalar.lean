import DiceBot.Json.Double
import DiceBot.Toml.Value
import DiceBot.Word

/-!
The lexical parts of TOML: comments, strings, numbers, dates and keys.
-/

namespace DiceBot.Toml

def isSpace (c : Char) : Bool := c = ' ' || c = '\t'

def skipSpaces (s : List Char) : List Char := s.dropWhile isSpace

/-- A character that may stand in a comment: no control character but the tab. -/
def isPrintable (c : Char) : Bool := c = '\t' || (32 ≤ c.toNat && c.toNat ≠ 127)

def skipComment (s : List Char) : List Char :=
  match s with
  | '#' :: rest => rest.dropWhile isPrintable
  | _ => s

/-- What follows a line feed, alone or after a carriage return. -/
def afterNewline? : List Char → Option (List Char)
  | '\n' :: rest => some rest
  | '\r' :: '\n' :: rest => some rest
  | _ => none

/-- What follows the line, of which only spaces and a comment may be left. -/
def afterLine? (s : List Char) : Option (List Char) :=
  match skipComment (skipSpaces s) with
  | [] => some []
  | rest => afterNewline? rest

/-- What follows spaces, comments and newlines. The fuel bounds the number of lines. -/
def skipLines? : (fuel : Nat) → List Char → Option (List Char)
  | 0, _ => none
  | fuel + 1, s =>
    match skipSpaces s with
    | '#' :: rest => (afterNewline? (skipComment ('#' :: rest))).bind (skipLines? fuel)
    | rest =>
      match afterNewline? rest with
      | some rest => skipLines? fuel rest
      | none => some rest

def hexValue? (c : Char) : Option Nat :=
  if c.isDigit then some (c.toNat - 48)
  else if 'a' ≤ c ∧ c ≤ 'f' then some (c.toNat - 87)
  else if 'A' ≤ c ∧ c ≤ 'F' then some (c.toNat - 55)
  else none

def charOfHex? (digits : List Char) : Option Char := do
  let values ← digits.mapM hexValue?
  let code := values.foldl (fun n d => n * 16 + d) 0
  if code.isValidChar then some (Char.ofNat code) else none

/-- The character that a letter after a backslash stands for. -/
def escaped? : Char → Option Char
  | 'b' => some '\x08'
  | 't' => some '\t'
  | 'n' => some '\n'
  | 'f' => some '\x0c'
  | 'r' => some '\r'
  | '"' => some '"'
  | '\\' => some '\\'
  | _ => none

/-- What is being left out of a long string: nothing, the rest of a line after a backslash, or the
blanks before the next character. -/
inductive Fold where
  | nothing
  | line
  | blanks
  deriving DecidableEq

/-- Two quotes more belong to a long string when they stand before its end. -/
def endOfLong (quote : Char) : List Char → List Char × List Char
  | a :: b :: rest =>
    if a = quote ∧ b = quote then ([a, b], rest)
    else if a = quote then ([a], b :: rest)
    else ([], a :: b :: rest)
  | [a] => if a = quote then ([a], []) else ([], [a])
  | [] => ([], [])

/-- Puts a character before the text that was taken. -/
def keep (c : Char) (taken : Option (List Char × List Char)) : Option (List Char × List Char) :=
  taken.map fun (text, rest) => (c :: text, rest)

/-- The text of a string with escapes up to its end, and what follows it. A long one ends with three
quotes and may hold newlines. -/
def takeEscaped? (long : Bool) : List Char → Fold → Option (List Char × List Char)
  | '"' :: '"' :: '"' :: rest, fold =>
    if fold = .line then none
    else if long then some (endOfLong '"' rest)
    else some ([], '"' :: '"' :: rest)
  | '\\' :: 'u' :: a :: b :: c :: d :: rest, fold =>
    if fold = .line then none
    else (charOfHex? [a, b, c, d]).bind fun c => keep c (takeEscaped? long rest .nothing)
  | '\\' :: 'U' :: a :: b :: c :: d :: e :: f :: g :: h :: rest, fold =>
    if fold = .line then none
    else
      (charOfHex? [a, b, c, d, e, f, g, h]).bind fun c => keep c (takeEscaped? long rest .nothing)
  | '\\' :: '\r' :: '\n' :: rest, fold =>
    if fold = .line ∨ ¬long then none else takeEscaped? long rest .blanks
  | '\\' :: e :: rest, fold =>
    if fold = .line then none
    else if long ∧ isSpace e then takeEscaped? long rest .line
    else if long ∧ e = '\n' then takeEscaped? long rest .blanks
    else (escaped? e).bind fun c => keep c (takeEscaped? long rest .nothing)
  | '\r' :: '\n' :: rest, fold =>
    if ¬long then none
    else if fold = .nothing then keep '\n' (takeEscaped? long rest .nothing)
    else takeEscaped? long rest .blanks
  | c :: rest, fold =>
    if fold ≠ .nothing ∧ isSpace c then takeEscaped? long rest fold
    else if fold ≠ .nothing ∧ c = '\n' then takeEscaped? long rest .blanks
    else if fold = .line then none
    else if c = '"' then if long then keep c (takeEscaped? long rest .nothing) else some ([], rest)
    else if (isPrintable c ∧ c ≠ '\\') ∨ (long ∧ c = '\n') then
      keep c (takeEscaped? long rest .nothing)
    else none
  | [], _ => none

/-- The text of a string without escapes up to its end, and what follows it. -/
def takeLiteral? (long : Bool) : List Char → Option (List Char × List Char)
  | '\'' :: '\'' :: '\'' :: rest =>
    if long then some (endOfLong '\'' rest) else some ([], '\'' :: '\'' :: rest)
  | '\r' :: '\n' :: rest => if long then keep '\n' (takeLiteral? long rest) else none
  | c :: rest =>
    if c = '\'' then if long then keep c (takeLiteral? long rest) else some ([], rest)
    else if isPrintable c ∨ (long ∧ c = '\n') then keep c (takeLiteral? long rest)
    else none
  | [] => none

/-- A newline right after the three quotes is no part of a long string. -/
def dropFirstNewline (s : List Char) : List Char := (afterNewline? s).getD s

/-- A string in any of its four forms, if the text starts with a quote. -/
def takeString? (s : List Char) : Option (String × List Char) :=
  let taken := match s with
    | '"' :: '"' :: '"' :: rest => takeEscaped? true (dropFirstNewline rest) .nothing
    | '"' :: rest => takeEscaped? false rest .nothing
    | '\'' :: '\'' :: '\'' :: rest => takeLiteral? true (dropFirstNewline rest)
    | '\'' :: rest => takeLiteral? false rest
    | _ => none
  taken.map fun (text, rest) => (String.ofList text, rest)

def isBareKey (c : Char) : Bool := c.isAlphanum || c = '_' || c = '-'

/-- One part of a key: bare, or a string on one line. -/
def takeSimpleKey? (s : List Char) : Option (String × List Char) :=
  let named := fun (taken : List Char × List Char) => (String.ofList taken.1, taken.2)
  match s with
  | '"' :: rest => (takeEscaped? false rest .nothing).map named
  | '\'' :: rest => (takeLiteral? false rest).map named
  | _ =>
    if (s.takeWhile isBareKey).isEmpty then none
    else some (named (s.takeWhile isBareKey, s.dropWhile isBareKey))

/-- The parts of a dotted key with the spaces around them; the fuel bounds their number. -/
def takeKeyParts? : (fuel : Nat) → List Char → Option (List String × List Char)
  | 0, _ => none
  | fuel + 1, s =>
    match takeSimpleKey? (skipSpaces s) with
    | none => none
    | some (part, rest) =>
      match skipSpaces rest with
      | '.' :: rest => (takeKeyParts? fuel rest).map fun (parts, rest) => (part :: parts, rest)
      | rest => some ([part], rest)

/-- A key has fewer parts than this, and a value fewer levels. -/
def depthLimit : Nat := 80

def takeKey? (s : List Char) : Option (List String × List Char) := takeKeyParts? (depthLimit - 1) s

/-- Digits after the first one, each underscore between two of them. -/
def moreDigits? (isDigit : Char → Bool) : List Char → Option (List Char × List Char)
  | [] => some ([], [])
  | '_' :: c :: rest =>
    if isDigit c then (moreDigits? isDigit rest).map fun (digits, rest) => (c :: digits, rest)
    else none
  | c :: rest =>
    if isDigit c then (moreDigits? isDigit rest).map fun (digits, rest) => (c :: digits, rest)
    else if c = '_' then none
    else some ([], c :: rest)

def takeDigits? (isDigit : Char → Bool) : List Char → Option (List Char × List Char)
  | [] => none
  | c :: rest =>
    if isDigit c then (moreDigits? isDigit rest).map fun (digits, rest) => (c :: digits, rest)
    else none

def integer? (n : Int) : Option Value :=
  if Word.holdsSigned64 n then some (.integer n) else none

/-- An integer with a mark of its base. -/
def takeBased? (base : Nat) (isDigit : Char → Bool) (s : List Char) :
    Option (Value × List Char) := do
  let (digits, rest) ← takeDigits? isDigit s
  let values ← digits.mapM hexValue?
  return (← integer? (values.foldl (fun n d => n * base + d) 0 : Nat), rest)

/-- Whether `coefficient · 10 ^ exponent` rounds to infinity. No number below it has more than 309
digits before the point. -/
def overflows (coefficient : Nat) (exponent : Int) : Bool :=
  if coefficient = 0 then false
  else
    let digits : Int := (Nat.toDigits 10 coefficient).length + exponent
    if digits > 310 then true
    else if digits < 300 then false
    else
      coefficient * Nat.pow 10 exponent.toNat ≥ Json.doubleOverflow * Nat.pow 10 (-exponent).toNat

/-- A float: its digits are checked, and a positive one has to be finite. -/
def float? (negative : Bool) (whole fraction : List Char) (exponent : Int) : Option Value :=
  let coefficient := Nat.ofDigitChars 10 (whole ++ fraction) 0
  if !negative && overflows coefficient (exponent - fraction.length) then none else some .float

def takeExponent? (s : List Char) : Option (Option Int × List Char) :=
  let digits (sign : Int) (s : List Char) : Option (Option Int × List Char) :=
    (takeDigits? Char.isDigit s).map fun (digits, rest) =>
      (some (sign * (Nat.ofDigitChars 10 digits 0 : Int)), rest)
  let signed (s : List Char) : Option (Option Int × List Char) :=
    match s with
    | '+' :: rest => digits 1 rest
    | '-' :: rest => digits (-1) rest
    | _ => digits 1 s
  match s with
  | 'e' :: rest => signed rest
  | 'E' :: rest => signed rest
  | _ => some (none, s)

/-- A decimal number without its sign. A zero stands alone before the point. -/
def takeDecimal? (negative : Bool) (s : List Char) : Option (Value × List Char) := do
  let (whole, rest) ← match s with
    | '0' :: rest => some (['0'], rest)
    | _ => takeDigits? Char.isDigit s
  match rest with
  | '.' :: rest =>
    let (fraction, rest) ← takeDigits? Char.isDigit rest
    let (exponent, rest) ← takeExponent? rest
    return (← float? negative whole fraction (exponent.getD 0), rest)
  | _ =>
    let (exponent, rest) ← takeExponent? rest
    match exponent with
    | some exponent => return (← float? negative whole [] exponent, rest)
    | none =>
      let n : Int := Nat.ofDigitChars 10 whole 0
      return (← integer? (if negative then -n else n), rest)

/-- A number with its sign, or one of the names of infinity and of what is no number. -/
def takeNumber? (s : List Char) : Option (Value × List Char) :=
  let unsigned (negative : Bool) (s : List Char) : Option (Value × List Char) :=
    match s with
    | 'i' :: 'n' :: 'f' :: rest => some (.float, rest)
    | 'n' :: 'a' :: 'n' :: rest => some (.float, rest)
    | _ => takeDecimal? negative s
  match s with
  | '+' :: rest => unsigned false rest
  | '-' :: rest => unsigned true rest
  | '0' :: 'x' :: rest => takeBased? 16 (fun c => (hexValue? c).isSome) rest
  | '0' :: 'o' :: rest => takeBased? 8 (fun c => '0' ≤ c && c ≤ '7') rest
  | '0' :: 'b' :: rest => takeBased? 2 (fun c => c = '0' || c = '1') rest
  | _ => unsigned false s

def two? (low high : Nat) (a b : Char) : Option Nat :=
  if a.isDigit ∧ b.isDigit then
    let n := Nat.ofDigitChars 10 [a, b] 0
    if low ≤ n ∧ n ≤ high then some n else none
  else none

def daysOfMonth (year month : Nat) : Nat :=
  if month = 2 then
    if year % 4 = 0 ∧ (year % 100 ≠ 0 ∨ year % 400 = 0) then 29 else 28
  else if month = 4 ∨ month = 6 ∨ month = 9 ∨ month = 11 then 30
  else 31

/-- What follows a time of day with an optional fraction of a second. A leap second may be named. -/
def afterTime? : List Char → Option (List Char)
  | h :: h' :: ':' :: m :: m' :: ':' :: s :: s' :: rest => do
    let _ ← two? 0 23 h h'
    let _ ← two? 0 59 m m'
    let _ ← two? 0 60 s s'
    match rest with
    | '.' :: d :: rest' => return if d.isDigit then rest'.dropWhile Char.isDigit else rest
    | _ => return rest
  | _ => none

/-- What follows an offset from universal time, if there is one. -/
def afterOffset (s : List Char) : List Char :=
  match s with
  | 'Z' :: rest => rest
  | 'z' :: rest => rest
  | sign :: h :: h' :: ':' :: m :: m' :: rest =>
    if (sign = '+' ∨ sign = '-') ∧ (two? 0 23 h h').isSome ∧ (two? 0 59 m m').isSome then rest
    else s
  | _ => s

/-- A date with an optional time and offset, or a time alone. -/
def takeDate? : List Char → Option (Value × List Char)
  | a :: b :: c :: d :: '-' :: m :: m' :: '-' :: n :: n' :: rest => do
    if !(a.isDigit && b.isDigit && c.isDigit && d.isDigit) then none
    let month ← two? 1 12 m m'
    let _ ← two? 1 (daysOfMonth (Nat.ofDigitChars 10 [a, b, c, d] 0) month) n n'
    match rest with
    | delimiter :: rest' =>
      if delimiter = 'T' ∨ delimiter = 't' ∨ delimiter = ' ' then
        match afterTime? rest' with
        | some rest => return (.date, afterOffset rest)
        | none => return (.date, rest)
      else return (.date, rest)
    | [] => return (.date, rest)
  | s => (afterTime? s).map fun rest => (.date, rest)

end DiceBot.Toml
