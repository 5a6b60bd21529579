/-!
Bytes as pairs of hexadecimal digits.
-/

namespace DiceBot.Bytes.Hex

def encode (bytes : List UInt8) : List Char :=
  bytes.flatMap fun b => [Nat.digitChar (b.toNat / 16), Nat.digitChar (b.toNat % 16)]

def digit? (c : Char) : Option Nat :=
  if c.isDigit then some (c.toNat - 48)
  else if 'a' ≤ c ∧ c ≤ 'f' then some (c.toNat - 87)
  else if 'A' ≤ c ∧ c ≤ 'F' then some (c.toNat - 55)
  else none

/-- The byte of two characters: two digits, or a plus sign and one digit. -/
def byte? (high low : Char) : Option UInt8 :=
  if high = '+' then (digit? low).map UInt8.ofNat
  else match digit? high, digit? low with
    | some high, some low => some (UInt8.ofNat (16 * high + low))
    | _, _ => none

def pairs? : List Char → Option (List UInt8)
  | [] => some []
  | high :: low :: rest =>
    match byte? high low, pairs? rest with
    | some b, some bytes => some (b :: bytes)
    | _, _ => none
  | _ => none

/-- The bytes of a text that is not empty. -/
def decode? (s : List Char) : Option (List UInt8) := if s = [] then none else pairs? s

end DiceBot.Bytes.Hex
