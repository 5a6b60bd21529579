import DiceBot.Word

/-!
Whole numbers in decimal: the value of a run of digits, and signed numerals within bounds.
-/

namespace DiceBot.Text

/-- The number that a run of decimal digits denotes; zero for the empty run. -/
def numeral (digits : List Char) : Nat := Nat.ofDigitChars 10 digits 0

/-- The number that a run of decimal digits denotes, as far as a word of 32 bits holds it: past the
largest one it stays there. -/
def saturatingNumeral (digits : List Char) : Nat :=
  digits.foldl (fun n c => min (min (n * 10) Word.largest32 + (c.toNat - 48)) Word.largest32) 0

theorem saturatingNumeral_eq (digits : List Char) :
    saturatingNumeral digits = min (numeral digits) Word.largest32 := by
  have step (n : Nat) : digits.foldl
      (fun n c => min (min (n * 10) Word.largest32 + (c.toNat - 48)) Word.largest32)
        (min n Word.largest32) = min (Nat.ofDigitChars 10 digits n) Word.largest32 := by
    induction digits generalizing n with
    | nil => rfl
    | cons c digits ih =>
      rw [List.foldl_cons, Nat.ofDigitChars_cons, ← ih]
      congr 1
      have : '0'.toNat = 48 := rfl
      simp only [Word.largest32]
      omega
  exact step 0

def readDigits? (s : List Char) : Option Nat :=
  if s ≠ [] ∧ s.all Char.isDigit then some (numeral s) else none

/-- A natural number: one `+` may stand before the digits, and any zeros at their start. -/
def readNat? (s : List Char) : Option Nat :=
  match s with
  | '+' :: digits => readDigits? digits
  | digits => readDigits? digits

/-- An integer: one sign may stand before the digits. -/
def readInt? (s : List Char) : Option Int :=
  match s with
  | '+' :: digits => (readDigits? digits).map Int.ofNat
  | '-' :: digits => (readDigits? digits).map fun n => -Int.ofNat n
  | digits => (readDigits? digits).map Int.ofNat

/-- A natural number below a bound. -/
def readNatBelow? (bound : Nat) (s : String) : Option Nat :=
  (readNat? s.toList).filter (· < bound)

/-- An integer that a word of 64 bits holds. -/
def readInt64? (s : List Char) : Option Int := (readInt? s).filter Word.holdsSigned64

end DiceBot.Text
