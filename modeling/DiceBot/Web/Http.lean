import DiceBot.Bytes.Utf8
import DiceBot.Text.Split

/-!
Requests of HTTP and the responses to them.
-/

namespace DiceBot.Web

structure Request where
  method : String
  path : String
  query : String
  contentType : Option String
  body : String
  deriving DecidableEq, Repr

/-- Path and query of what a request asks for. What follows a number sign is not sent. -/
def Request.splitTarget (target : String) : String × String :=
  let sent := ((Text.splitFirst '#' target.toList).elim target.toList Prod.fst)
  match Text.splitFirst '?' sent with
  | some (path, query) => (String.ofList path, String.ofList query)
  | none => (String.ofList sent, "")

structure Response where
  status : Nat
  contentType : Option String
  location : Option String
  body : String
  deriving DecidableEq, Repr

/-- A byte that the value of a header may contain. -/
def inHeader (b : UInt8) : Bool := (32 ≤ b && b ≠ 127) || b = 9

def isHeaderValue (s : String) : Bool := (Bytes.utf8 s).all inHeader

namespace Response

def text (status : Nat) (body : String) : Response :=
  ⟨status, some "text/plain; charset=utf-8", none, body⟩

def html (status : Nat) (body : String) : Response :=
  ⟨status, some "text/html; charset=utf-8", none, body⟩

def json (status : Nat) (body : String) : Response := ⟨status, some "application/json", none, body⟩

def empty (status : Nat) : Response := ⟨status, none, none, ""⟩

/-- Sends the caller to another address with a `GET`. -/
def seeOther (location : String) : Response :=
  if isHeaderValue location then ⟨303, none, some location, ""⟩
  else text 500 "failed to parse header value"

/-- A short page that tells of a failure. -/
def failure (status : Nat) (message : String) : Response :=
  html status ("<h1>" ++ toString status ++ "</h1><p>" ++ message ++ "</p>")

/-- The answer to a `HEAD` is that to a `GET` without its body. -/
def withoutBody (r : Response) : Response := { r with body := "" }

end Response
end DiceBot.Web
