/-!
Base64 with the standard alphabet: padded, and with nothing but zeros in the bits that no byte uses.
-/

namespace DiceBot.Bytes.Base64

/-- The character of a number below 64. -/
def char (n : Nat) : Char :=
  if n < 26 then Char.ofNat (n + 65)
  else if n < 52 then Char.ofNat (n + 71)
  else if n < 62 then Char.ofNat (n - 4)
  else if n = 62 then '+'
  else '/'

def value? (c : Char) : Option Nat :=
  if c.isUpper then some (c.toNat - 65)
  else if c.isLower then some (c.toNat - 71)
  else if c.isDigit then some (c.toNat + 4)
  else if c = '+' then some 62
  else if c = '/' then some 63
  else none

/-- Three bytes are four characters; one or two left over are two or three, padded to four. -/
def encode : List UInt8 → List Char
  | [] => []
  | [a] => [char (a.toNat / 4), char (a.toNat % 4 * 16), '=', '=']
  | [a, b] =>
    [char (a.toNat / 4), char (a.toNat % 4 * 16 + b.toNat / 16), char (b.toNat % 16 * 4), '=']
  | a :: b :: c :: rest =>
    char (a.toNat / 4) :: char (a.toNat % 4 * 16 + b.toNat / 16) ::
    char (b.toNat % 16 * 4 + c.toNat / 64) :: char (c.toNat % 64) :: encode rest

/-- The one byte of two numbers, if the second has no other bits. -/
def one? (p q : Nat) : Option (List UInt8) :=
  if q % 16 = 0 then some [UInt8.ofNat (p * 4 + q / 16)] else none

/-- The two bytes of three numbers, if the third has no other bits. -/
def two? (p q r : Nat) : Option (List UInt8) :=
  if r % 4 = 0 then some [UInt8.ofNat (p * 4 + q / 16), UInt8.ofNat (q % 16 * 16 + r / 4)]
  else none

def three (p q r s : Nat) : List UInt8 :=
  [UInt8.ofNat (p * 4 + q / 16), UInt8.ofNat (q % 16 * 16 + r / 4), UInt8.ofNat (r % 4 * 64 + s)]

/-- Reads groups of four characters. Only the last one may be padded. -/
def decode? : List Char → Option (List UInt8)
  | [] => some []
  | p :: q :: r :: s :: rest =>
    if r = '=' ∧ s = '=' ∧ rest = [] then
      match value? p, value? q with
      | some p, some q => one? p q
      | _, _ => none
    else if s = '=' ∧ rest = [] then
      match value? p, value? q, value? r with
      | some p, some q, some r => two? p q r
      | _, _, _ => none
    else
      match value? p, value? q, value? r, value? s, decode? rest with
      | some p, some q, some r, some s, some bytes => some (three p q r s ++ bytes)
      | _, _, _, _, _ => none
  | _ => none

end DiceBot.Bytes.Base64
