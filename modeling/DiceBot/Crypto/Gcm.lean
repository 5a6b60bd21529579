import DiceBot.Crypto.Aes
import DiceBot.Crypto.Sha256

/-!
Authenticated encryption: AES in counter mode with a tag of sixteen bytes over the encrypted text.
-/

namespace DiceBot.Crypto.Gcm

def blockToNat (block : List UInt8) : Nat := block.foldl (fun n b => n * 256 + b.toNat) 0

def natToBlock (n : Nat) : List UInt8 :=
  (List.range 16).map fun i => UInt8.ofNat (n >>> (8 * (15 - i)))

/-- The product of two elements of the field of 2 ^ 128 elements, whose first coefficient is the
highest bit. -/
def times (x y : Nat) : Nat :=
  ((List.range 128).foldl (fun (z, v) i =>
    (if x.testBit (127 - i) then z ^^^ v else z,
      if v.testBit 0 then (v >>> 1) ^^^ (0xe1 <<< 120) else v >>> 1)) (0, y)).1

/-- The bytes in blocks of sixteen; the last one may be shorter. The fuel bounds their number. -/
def blocks : (fuel : Nat) → List UInt8 → List (List UInt8)
  | 0, _ => []
  | fuel + 1, bytes =>
    if bytes.isEmpty then [] else bytes.take 16 :: blocks fuel (bytes.drop 16)

def fillBlock (block : List UInt8) : List UInt8 := block ++ List.replicate (16 - block.length) 0

/-- The hash of the encrypted text and its length under a point of the field. -/
def hash (point : Nat) (text : List UInt8) : Nat :=
  let step (y : Nat) (block : List UInt8) := times (y ^^^ blockToNat (fillBlock block)) point
  let y := (blocks text.length text).foldl step 0
  times (y ^^^ text.length * 8) point

/-- The block that is encrypted for the counter's value. -/
def counterBlock (nonce : List UInt8) (counter : Nat) : List UInt8 :=
  nonce ++ bytesOfWord (UInt32.ofNat counter)

/-- The first `length` bytes of the stream that hides a text; its counter starts at two. -/
def stream (keys : List (List UInt8)) (nonce : List UInt8) (length : Nat) : List UInt8 :=
  ((List.range ((length + 15) / 16)).flatMap fun i =>
    Aes.encrypt keys (counterBlock nonce (i + 2))).take length

def hide (keys : List (List UInt8)) (nonce text : List UInt8) : List UInt8 :=
  xorBytes text (stream keys nonce text.length)

def tag (keys : List (List UInt8)) (nonce hidden : List UInt8) : List UInt8 :=
  let point := blockToNat (Aes.encrypt keys (List.replicate 16 0))
  xorBytes (natToBlock (hash point hidden)) (Aes.encrypt keys (counterBlock nonce 1))

def encrypt (key nonce text : List UInt8) : List UInt8 :=
  let keys := Aes.roundKeys key
  let hidden := hide keys nonce text
  hidden ++ tag keys nonce hidden

/-- The text, if the sixteen bytes at the end are the tag of what is before them. -/
def decrypt? (key nonce sealed : List UInt8) : Option (List UInt8) :=
  let keys := Aes.roundKeys key
  let hidden := sealed.take (sealed.length - 16)
  if 16 ≤ sealed.length ∧ sealed.drop (sealed.length - 16) = tag keys nonce hidden then
    some (hide keys nonce hidden)
  else none

end DiceBot.Crypto.Gcm
