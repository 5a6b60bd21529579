import DiceBot.Json.Double
import DiceBot.Json.Value

/-!
Reading JSON text. The reader accepts every well-formed text; what a generic value demands beyond
that (text that exists, numbers in range, bounded nesting) is a property of the value it returns.
-/

namespace DiceBot.Json

def skipBlanks (s : List Char) : List Char :=
  s.dropWhile fun c => c = ' ' || c = '\n' || c = '\t' || c = '\r'

def hexDigit? (c : Char) : Option Nat :=
  if c.isDigit then some (c.toNat - 48)
  else if 'a' ≤ c ∧ c ≤ 'f' then some (c.toNat - 87)
  else if 'A' ≤ c ∧ c ≤ 'F' then some (c.toNat - 55)
  else none

def hexUnit? (a b c d : Char) : Option Nat := do
  let a ← hexDigit? a
  let b ← hexDigit? b
  let c ← hexDigit? c
  let d ← hexDigit? d
  return ((a * 16 + b) * 16 + c) * 16 + d

/-- What a string is made of: characters as they stand, and units written as escapes. -/
inductive Piece where
  | plain (c : Char)
  | unit (n : Nat)
  deriving DecidableEq, Repr

/-- The pieces of a string up to its closing quote, and what follows it. -/
def takePieces? : List Char → Option (List Piece × List Char)
  | [] => none
  | '"' :: rest => some ([], rest)
  | '\\' :: 'u' :: a :: b :: c :: d :: rest =>
    match hexUnit? a b c d, takePieces? rest with
    | some n, some (pieces, rest) => some (.unit n :: pieces, rest)
    | _, _ => none
  | '\\' :: c :: rest =>
    let escaped (c : Char) :=
      (takePieces? rest).map fun (pieces, rest) => (.plain c :: pieces, rest)
    match c with
    | '"' | '\\' | '/' => escaped c
    | 'b' => escaped '\x08'
    | 'f' => escaped '\x0c'
    | 'n' => escaped '\n'
    | 'r' => escaped '\r'
    | 't' => escaped '\t'
    | _ => none
  | c :: rest =>
    if c = '\\' ∨ c.toNat < 32 then none
    else (takePieces? rest).map fun (pieces, rest) => (.plain c :: pieces, rest)

/-- The text of a string: a high surrogate and the low one after it are one character, and no
surrogate stands alone. -/
def textOfPieces? : List Piece → Option (List Char)
  | [] => some []
  | .plain c :: rest => (textOfPieces? rest).map (c :: ·)
  | .unit n :: rest =>
    if n < 0xD800 ∨ 0xDFFF < n then (textOfPieces? rest).map (Char.ofNat n :: ·)
    else if n < 0xDC00 then
      match rest with
      | .unit low :: rest =>
        if 0xDC00 ≤ low ∧ low ≤ 0xDFFF then
          let code := 0x10000 + (n - 0xD800) * 0x400 + (low - 0xDC00)
          (textOfPieces? rest).map (Char.ofNat code :: ·)
        else none
      | _ => none
    else none

def takeString? (s : List Char) : Option (Option String × List Char) :=
  (takePieces? s).map fun (pieces, rest) => ((textOfPieces? pieces).map String.ofList, rest)

/-- The exponent at the start of the text, zero if there is none. -/
def takeExponent? (s : List Char) : Option (Int × Bool × List Char) :=
  let digits (sign : Int) (rest : List Char) :=
    let run := rest.takeWhile Char.isDigit
    if run = [] then none
    else some (sign * (Nat.ofDigitChars 10 run 0 : Int), true, rest.dropWhile Char.isDigit)
  let signed (rest : List Char) :=
    match rest with
    | '+' :: rest => digits 1 rest
    | '-' :: rest => digits (-1) rest
    | _ => digits 1 rest
  match s with
  | 'e' :: rest => signed rest
  | 'E' :: rest => signed rest
  | _ => some (0, false, s)

/-- A number without its sign. A zero stands alone before the point. -/
def takeNumber? (negative : Bool) (s : List Char) : Option (Number × List Char) :=
  let whole := s.takeWhile Char.isDigit
  let rest := s.dropWhile Char.isDigit
  if whole = [] ∨ (whole.head? = some '0' ∧ whole.length ≠ 1) then none
  else
    let withFraction (fraction rest : List Char) (pointed : Bool) :=
      (takeExponent? rest).map fun (exponent, raised, rest) =>
        (⟨negative, Nat.ofDigitChars 10 (whole ++ fraction) 0, exponent - fraction.length,
          !pointed && !raised⟩, rest)
    match rest with
    | '.' :: rest =>
      let fraction := rest.takeWhile Char.isDigit
      if fraction = [] then none else withFraction fraction (rest.dropWhile Char.isDigit) true
    | _ => withFraction [] rest false

mutual
/-- The value at the start of the text, and what follows it. Each level of nesting takes one unit
of fuel, and so does each item of a list. -/
def takeValue? : (fuel : Nat) → List Char → Option (Value × List Char)
  | 0, _ => none
  | fuel + 1, s =>
    match skipBlanks s with
    | 'n' :: 'u' :: 'l' :: 'l' :: rest => some (.null, rest)
    | 't' :: 'r' :: 'u' :: 'e' :: rest => some (.bool true, rest)
    | 'f' :: 'a' :: 'l' :: 's' :: 'e' :: rest => some (.bool false, rest)
    | '"' :: rest => (takeString? rest).map fun (text, rest) => (.string text, rest)
    | '[' :: rest =>
      match skipBlanks rest with
      | ']' :: rest => some (.array [], rest)
      | rest => (takeItems? fuel rest).map fun (items, rest) => (.array items, rest)
    | '{' :: rest =>
      match skipBlanks rest with
      | '}' :: rest => some (.object [], rest)
      | rest => (takeMembers? fuel rest).map fun (members, rest) => (.object members, rest)
    | '-' :: rest => (takeNumber? true rest).map fun (n, rest) => (.number n, rest)
    | rest => (takeNumber? false rest).map fun (n, rest) => (.number n, rest)

/-- The items of an array that is not empty, and what follows its bracket. -/
def takeItems? : (fuel : Nat) → List Char → Option (List Value × List Char)
  | 0, _ => none
  | fuel + 1, s =>
    match takeValue? fuel s with
    | none => none
    | some (item, rest) =>
      match skipBlanks rest with
      | ',' :: rest => (takeItems? fuel rest).map fun (items, rest) => (item :: items, rest)
      | ']' :: rest => some ([item], rest)
      | _ => none

/-- The members of an object that is not empty, and what follows its brace. -/
def takeMembers? : (fuel : Nat) → List Char → Option (List (Option String × Value) × List Char)
  | 0, _ => none
  | fuel + 1, s =>
    match skipBlanks s with
    | '"' :: rest =>
      match takeString? rest with
      | none => none
      | some (name, rest) =>
        match skipBlanks rest with
        | ':' :: rest =>
          match takeValue? fuel rest with
          | none => none
          | some (value, rest) =>
            match skipBlanks rest with
            | ',' :: rest =>
              (takeMembers? fuel rest).map fun (members, rest) => ((name, value) :: members, rest)
            | '}' :: rest => some ([(name, value)], rest)
            | _ => none
        | _ => none
    | _ => none
end

def parse? (text : String) : Option Value :=
  let s := text.toList
  match takeValue? (s.length + 1) s with
  | some (value, rest) => if skipBlanks rest = [] then some value else none
  | none => none

namespace Number

/-- The coefficient cut to a word of 64 bits, with the exponent raised by the digits cut. -/
def cut : (fuel : Nat) → Nat → Int → Nat × Int
  | 0, coefficient, exponent => (coefficient, exponent)
  | fuel + 1, coefficient, exponent =>
    if coefficient < Word.count64 then (coefficient, exponent)
    else cut fuel (coefficient / 10) (exponent + 1)

/-- Whether a number has a finite binary form: that of the cut coefficient times that of its power
of ten. -/
def isFinite (n : Number) : Bool :=
  let (coefficient, exponent) := cut n.coefficient.log2 n.coefficient n.exponent
  match exponent with
  | .negSucc _ => true
  | .ofNat e =>
    coefficient = 0 ||
    (e ≤ 308 && roundToDouble coefficient * roundToDouble (Nat.pow 10 e) < doubleOverflow)

end Number

mutual
/-- Whether a value is generic data: every string denotes text, every number is finite and at most
`depth` containers are nested. -/
def Value.isData (depth : Nat) : Value → Bool
  | .null | .bool _ => true
  | .number n => n.integral && n.coefficient < Word.count64 || n.isFinite
  | .string text => text.isSome
  | .array items => depth ≠ 0 && itemsAreData (depth - 1) items
  | .object members => depth ≠ 0 && membersAreData (depth - 1) members

def itemsAreData (depth : Nat) : List Value → Bool
  | [] => true
  | item :: items => item.isData depth && itemsAreData depth items

def membersAreData (depth : Nat) : List (Option String × Value) → Bool
  | [] => true
  | (name, value) :: members =>
    name.isSome && value.isData depth && membersAreData depth members
end

end DiceBot.Json
