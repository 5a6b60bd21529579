import DiceBot.Json.Value

/-!
Writing JSON text, on one line or with one member a line.
-/

namespace DiceBot.Json

def hexDigitLower (n : Nat) : Char := Nat.digitChar (n % 16)

/-- A character inside a string: quotes, backslashes and control characters are escaped. -/
def escape (c : Char) : List Char :=
  if c = '"' then ['\\', '"']
  else if c = '\\' then ['\\', '\\']
  else if c = '\x08' then ['\\', 'b']
  else if c = '\x0c' then ['\\', 'f']
  else if c = '\n' then ['\\', 'n']
  else if c = '\r' then ['\\', 'r']
  else if c = '\t' then ['\\', 't']
  else if c.toNat < 32 then
    ['\\', 'u', '0', '0', hexDigitLower (c.toNat / 16), hexDigitLower c.toNat]
  else [c]

def quote (s : String) : String := String.ofList ('"' :: s.toList.flatMap escape ++ ['"'])

def Number.render (n : Number) : String :=
  (if n.negative then "-" else "") ++ toString n.coefficient ++
  (if n.exponent = 0 then "" else "e" ++ toString n.exponent)

mutual
/-- The text of a value without any blanks. -/
def Value.render : Value → String
  | .null => "null"
  | .bool b => if b then "true" else "false"
  | .number n => n.render
  | .string text => quote (text.getD "")
  | .array items => "[" ++ ",".intercalate (renderItems items) ++ "]"
  | .object members => "\x7b" ++ ",".intercalate (renderMembers members) ++ "\x7d"

def renderItems : List Value → List String
  | [] => []
  | item :: items => item.render :: renderItems items

def renderMembers : List (Option String × Value) → List String
  | [] => []
  | (name, value) :: members =>
    (quote (name.getD "") ++ ":" ++ value.render) :: renderMembers members
end

/-- Lines between two brackets, each on a level of its own. -/
def block (opening closing margin : String) : List String → String
  | [] => opening ++ closing
  | lines =>
    opening ++ "\n" ++ ",\n".intercalate (lines.map (margin ++ "  " ++ ·)) ++
    "\n" ++ margin ++ closing

mutual
/-- The text of a value with two more spaces before the lines of each level. -/
def Value.renderLines (margin : String) : Value → String
  | .array items => block "[" "]" margin (linesOfItems (margin ++ "  ") items)
  | .object members => block "\x7b" "\x7d" margin (linesOfMembers (margin ++ "  ") members)
  | .null => Value.null.render
  | .bool b => (Value.bool b).render
  | .number n => (Value.number n).render
  | .string text => (Value.string text).render

def linesOfItems (margin : String) : List Value → List String
  | [] => []
  | item :: items => item.renderLines margin :: linesOfItems margin items

def linesOfMembers (margin : String) : List (Option String × Value) → List String
  | [] => []
  | (name, value) :: members =>
    (quote (name.getD "") ++ ": " ++ value.renderLines margin) :: linesOfMembers margin members
end

end DiceBot.Json
