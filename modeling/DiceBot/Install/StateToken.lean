import DiceBot.Bytes.Hex
import DiceBot.Bytes.Utf8
import DiceBot.Crypto.Hmac
import DiceBot.Text.Blank
import DiceBot.Text.Numeral
import DiceBot.Text.Split
import DiceBot.Time.Instant

/-!
State tokens: they prove that an installation was started here and not long ago. A token is the
second of its issue, a dot and the signature of client and second in hexadecimal digits.
-/

namespace DiceBot.Install

open Time (Instant)

/-- What issues and verifies state tokens. The age limit is in whole seconds. -/
structure Signer where
  clientId : String
  secret : String
  maxAge : Int

inductive StateError where
  | malformed
  | forged
  | expired (age : Int)
  deriving DecidableEq, Repr

def StateError.message : StateError → String
  | .malformed => "state token is malformed"
  | .forged => "state token signature does not match"
  | .expired age => "state token expired " ++ toString age ++ " seconds after issue"

/-- The difference of two integers, moved into the range of a word of 64 bits. -/
def differenceWithin (a b : Int) : Int :=
  max (-Word.largestSigned64 - 1) (min Word.largestSigned64 (a - b))

namespace Signer

/-- An age limit beyond the range of times is no limit. -/
def new (clientId secret : String) (maxAge : Nat) : Signer :=
  ⟨clientId, secret, min (maxAge : Int) Word.largestSigned64⟩

/-- The text that is signed. -/
def payload (s : Signer) (second : Int) : String := s.clientId ++ ":" ++ toString second

def signature (s : Signer) (second : Int) : List UInt8 :=
  Crypto.hmac (Bytes.utf8 s.secret) (Bytes.utf8 (s.payload second))

def issue (s : Signer) (now : Instant) : String :=
  toString now.seconds ++ "." ++ String.ofList (Bytes.Hex.encode (s.signature now.seconds))

/-- The second and the signature that a token writes. -/
def read? (token : String) : Option (Int × List UInt8) := do
  let (second, signature) ← Text.splitFirst '.' (Text.trim token.toList)
  return (← Text.readInt64? second, ← Bytes.Hex.decode? signature)

/-- The time of issue of a genuine token that is not too old. -/
def verify (s : Signer) (token : String) (now : Instant) : Except StateError Instant :=
  match read? token with
  | none => .error .malformed
  | some (second, signature) =>
    if signature ≠ s.signature second then .error .forged
    else match Instant.ofSeconds? second with
      | none => .error .malformed
      | some issued =>
        let age := differenceWithin now.seconds second
        if age > s.maxAge then .error (.expired age) else .ok issued

end Signer
end DiceBot.Install
