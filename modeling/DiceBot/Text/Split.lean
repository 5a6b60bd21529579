/-!
Cutting text at separators and joining it again.
-/

namespace DiceBot.Text

/-- The text before and after the first occurrence of a separator. -/
def splitFirst {α : Type} [DecidableEq α] (sep : α) : List α → Option (List α × List α)
  | [] => none
  | c :: rest =>
    if c = sep then some ([], rest)
    else (splitFirst sep rest).map fun (before, after) => (c :: before, after)

def dropStart? (start s : List Char) : Option (List Char) :=
  if start.isPrefixOf s then some (s.drop start.length) else none

/-- A text without the run of one character at its end. -/
def dropRunAtEnd (c : Char) (s : String) : String :=
  String.ofList ((s.toList.reverse.dropWhile (· == c)).reverse)

def startsWith (start s : String) : Bool := start.toList.isPrefixOf s.toList

/-- Every letter of ASCII in lower case, every other character as it is. -/
def lower (s : String) : String := String.ofList (s.toList.map Char.toLower)

end DiceBot.Text
