/-!
The block cipher AES with keys of 32 bytes. A block is a list of sixteen bytes, column by column.
-/

namespace DiceBot.Crypto

def xorBytes (a b : List UInt8) : List UInt8 := List.zipWith (· ^^^ ·) a b

namespace Aes

/-- Multiplication by `x` in the field of 256 elements. -/
def double (b : UInt8) : UInt8 := (b <<< 1) ^^^ (if b ≥ 0x80 then 0x1b else 0)

/-- Multiplication in the field of 256 elements, over the bits of the second factor. -/
def times (a b : UInt8) : UInt8 :=
  ((List.range 8).foldl (fun (product, power) i =>
    (if b.toNat.testBit i then product ^^^ power else product, double power)) (0, a)).1

/-- The inverse of an element is its 254th power, and zero for zero. -/
def inverse (b : UInt8) : UInt8 := (List.range 253).foldl (fun power _ => times power b) b

def rotateByte (b n : UInt8) : UInt8 := b <<< n ||| b >>> (8 - n)

/-- The inverse followed by an affine map over the bits. -/
def substitution (b : UInt8) : UInt8 :=
  let i := inverse b
  i ^^^ rotateByte i 1 ^^^ rotateByte i 2 ^^^ rotateByte i 3 ^^^ rotateByte i 4 ^^^ 0x63

def substitutions : Array UInt8 := Array.ofFn fun i : Fin 256 => substitution (UInt8.ofNat i)

def substitute (b : UInt8) : UInt8 := substitutions.getD b.toNat 0

/-- Row `r` moves left by `r` columns. -/
def shiftRows (s : List UInt8) : List UInt8 :=
  (List.range 16).map fun i => s.getD (i % 4 + 4 * ((i / 4 + i % 4) % 4)) 0

def mixColumns : List UInt8 → List UInt8
  | a :: b :: c :: d :: rest =>
    (double a ^^^ (double b ^^^ b) ^^^ c ^^^ d) :: (a ^^^ double b ^^^ (double c ^^^ c) ^^^ d) ::
    (a ^^^ b ^^^ double c ^^^ (double d ^^^ d)) :: ((double a ^^^ a) ^^^ b ^^^ c ^^^ double d) ::
    mixColumns rest
  | _ => []

/-- The 32 bytes of key schedule that follow 32 others. -/
def nextKeys (constant : UInt8) (keys : List UInt8) : List UInt8 :=
  let word (i : Nat) : List UInt8 := (keys.drop (4 * i)).take 4
  let turned := match word 7 with
    | [a, b, c, d] => [substitute b ^^^ constant, substitute c, substitute d, substitute a]
    | other => other
  let w0 := xorBytes (word 0) turned
  let w1 := xorBytes (word 1) w0
  let w2 := xorBytes (word 2) w1
  let w3 := xorBytes (word 3) w2
  let w4 := xorBytes (word 4) (w3.map substitute)
  let w5 := xorBytes (word 5) w4
  let w6 := xorBytes (word 6) w5
  let w7 := xorBytes (word 7) w6
  w0 ++ w1 ++ w2 ++ w3 ++ w4 ++ w5 ++ w6 ++ w7

/-- The fifteen keys of the rounds. -/
def roundKeys (key : List UInt8) : List (List UInt8) :=
  let schedule := ([1, 2, 4, 8, 16, 32, 64].foldl (fun (all, last) constant =>
    let next := nextKeys constant last
    (all ++ next, next)) (key, key)).1
  (List.range 15).map fun i => (schedule.drop (16 * i)).take 16

def round (s key : List UInt8) : List UInt8 :=
  xorBytes (mixColumns (shiftRows (s.map substitute))) key

def lastRound (s key : List UInt8) : List UInt8 := xorBytes (shiftRows (s.map substitute)) key

def encrypt (keys : List (List UInt8)) (block : List UInt8) : List UInt8 :=
  let middle := (keys.drop 1).take 13
  lastRound (middle.foldl round (xorBytes block (keys.getD 0 []))) (keys.getD 14 [])

end Aes
end DiceBot.Crypto
