import DiceBot.Text.Blank

/-!
Team ids: opaque names of letters and digits that Slack gives to its workspaces.
-/

namespace DiceBot.Team

structure Id where
  text : String
  deriving DecidableEq, Repr

structure IdError where
  given : String
  deriving DecidableEq, Repr

def IdError.message (e : IdError) : String :=
  "team id `" ++ e.given ++ "` is not a valid Slack team id"

/-- A team id is one or more letters and digits of ASCII, with blanks around it. -/
def Id.parse (given : String) : Except IdError Id :=
  let inner := Text.trim given.toList
  if inner ≠ [] ∧ inner.all Char.isAlphanum then .ok ⟨String.ofList inner⟩ else .error ⟨given⟩

end DiceBot.Team
