/-!
The range of binary numbers with 53 significant bits, in exact arithmetic.
-/

namespace DiceBot.Json

/-- The nearest natural number with at most 53 significant bits; a tie goes to the even one. -/
def roundToDouble (n : Nat) : Nat :=
  if n.log2 < 53 then n
  else
    let unit := 1 <<< (n.log2 - 52)
    let quotient := n / unit
    let twice := 2 * (n % unit)
    if twice < unit ∨ (twice = unit ∧ quotient % 2 = 0) then quotient * unit
    else (quotient + 1) * unit

/-- From here on a number rounds to infinity. -/
def doubleOverflow : Nat := (1 <<< 1024) - (1 <<< 970)

end DiceBot.Json
