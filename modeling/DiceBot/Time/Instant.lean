/-!
Points in time with a precision of one nanosecond.
-/

namespace DiceBot.Time

/-- Whole seconds since the start of 1970 and the nanoseconds after them. A leap second is counted
as nanoseconds from 10 ^ 9 on of the second before it. -/
structure Instant where
  seconds : Int
  nanos : Nat
  deriving DecidableEq, Repr

/-- The first and the last second that an instant may lie in. -/
def earliest : Int := -8334601228800
def latest : Int := 8210266876799

/-- The start of a second, within the range of time. -/
def Instant.ofSeconds? (seconds : Int) : Option Instant :=
  if earliest ≤ seconds ∧ seconds ≤ latest then some ⟨seconds, 0⟩ else none

end DiceBot.Time
