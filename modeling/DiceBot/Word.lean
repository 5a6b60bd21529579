/-!
How many numbers a word of a given number of bits has room for, and the largest ones in it.
-/

namespace DiceBot.Word

def count16 : Nat := 0x10000

def count32 : Nat := 0x100000000

def count64 : Nat := 0x10000000000000000

def largest32 : Nat := 0xFFFFFFFF

/-- The largest integer in a word of 64 bits with a sign. -/
def largestSigned64 : Int := 0x7FFFFFFFFFFFFFFF

/-- Whether an integer fits in a word of 64 bits with a sign. -/
def holdsSigned64 (n : Int) : Bool := -largestSigned64 - 1 ≤ n && n ≤ largestSigned64

end DiceBot.Word
