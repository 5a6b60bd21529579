/-!
Text inside HTML.
-/

namespace DiceBot.Web.Html

/-- A character that has no meaning of its own in HTML, in text and in attributes. -/
def escapeChar (c : Char) : List Char :=
  match c with
  | '&' => "&amp;".toList
  | '<' => "&lt;".toList
  | '>' => "&gt;".toList
  | '"' => "&quot;".toList
  | '\'' => "&#x27;".toList
  | '/' => "&#x2F;".toList
  | c => [c]

def escape (s : String) : String := String.ofList (s.toList.flatMap escapeChar)

end DiceBot.Web.Html
