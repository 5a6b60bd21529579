import DiceBot.Team.Id

/-!
Failures of the application, and the faults that they are to a caller.
-/

namespace DiceBot

inductive Failure where
  | team (error : Team.IdError)
  | persistence (detail : String)
  | integration (detail : String)
  | configuration (detail : String)
  deriving DecidableEq, Repr

def Failure.message : Failure → String
  | .team error => error.message
  | .persistence detail => "persistence failure: " ++ detail
  | .integration detail => "integration failure: " ++ detail
  | .configuration detail => "configuration failure: " ++ detail

/-- Whose fault a failure is: the caller's, that of something the application depends on, or its
own. -/
inductive Blame where
  | caller
  | dependency
  | application
  deriving DecidableEq, Repr

/-- What a caller is told, whatever the failure was in detail. -/
def Blame.userMessage : Blame → String
  | .caller => "The request could not be processed. Check inputs and try again."
  | .dependency => "The service is temporarily unavailable. Please retry shortly."
  | .application => "An unexpected internal error occurred."

/-- A failure as a caller sees it, with an id that finds it in the log. -/
structure Fault where
  blame : Blame
  detail : String
  correlationId : String
  deriving DecidableEq, Repr

namespace Fault

def message (f : Fault) : String :=
  match f.blame with
  | .caller => "bad request: " ++ f.detail
  | .dependency => "service unavailable: " ++ f.detail
  | .application => "internal error: " ++ f.detail

def userMessage (f : Fault) : String := f.blame.userMessage

def unassigned : String := "unassigned"

end Fault

def Failure.fault (f : Failure) (correlationId : String) : Fault :=
  match f with
  | .team error => ⟨.caller, error.message, correlationId⟩
  | .persistence detail | .integration detail => ⟨.dependency, detail, correlationId⟩
  | .configuration detail => ⟨.application, detail, correlationId⟩

end DiceBot
