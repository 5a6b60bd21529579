import DiceBot.Text.Numeral
import DiceBot.Time.Calendar
import DiceBot.Time.Instant

/-!
Timestamps of RFC 3339: instants as text, written in universal time and read with any offset.
-/

namespace DiceBot.Time

def secondsInDay : Int := 86400

def nanosInSecond : Nat := 1000000000

/-- A number in at least the given count of digits. -/
def padded (width n : Nat) : List Char :=
  let digits := (toString n).toList
  List.replicate (width - digits.length) '0' ++ digits

/-- A year in four digits, or with a sign when it is not from 0 to 9999. -/
def yearText (year : Int) : List Char :=
  if 0 ≤ year ∧ year ≤ 9999 then padded 4 year.toNat
  else (if year < 0 then '-' else '+') :: padded 4 year.natAbs

/-- A fraction of a second in none, three, six or nine digits, the fewest that hold it. -/
def fractionText (nanos : Nat) : List Char :=
  if nanos = 0 then []
  else if nanos % 1000000 = 0 then '.' :: padded 3 (nanos / 1000000)
  else if nanos % 1000 = 0 then '.' :: padded 6 (nanos / 1000)
  else '.' :: padded 9 nanos

/-- An instant in universal time. A leap second is the second 60. -/
def Instant.stamp (t : Instant) : String :=
  let date := Date.ofDayNumber (t.seconds / secondsInDay)
  let second := (t.seconds % secondsInDay).toNat
  let leap := if nanosInSecond ≤ t.nanos then 1 else 0
  String.ofList (
    yearText date.year ++ ['-'] ++ padded 2 date.month.toNat ++ ['-'] ++ padded 2 date.day.toNat ++
    ['T'] ++ padded 2 (second / 3600) ++ [':'] ++ padded 2 (second / 60 % 60) ++ [':'] ++
    padded 2 (second % 60 + leap) ++ fractionText (t.nanos - leap * nanosInSecond) ++
    ['+', '0', '0', ':', '0', '0'])

/-- A number of exactly the given count of digits, and what follows. -/
def takeNumber? (width : Nat) (s : List Char) : Option (Nat × List Char) :=
  if s.length < width then none
  else (Text.readDigits? (s.take width)).map fun n => (n, s.drop width)

/-- What follows one of the given characters. -/
def takeOneOf? (cs : List Char) : List Char → Option (List Char)
  | c :: rest => if cs.contains c then some rest else none
  | [] => none

/-- The nanoseconds of a fraction and what follows it. Digits past the ninth are dropped. -/
def takeFraction? : List Char → Option (Nat × List Char)
  | '.' :: rest =>
    let digits := rest.takeWhile Char.isDigit
    if digits = [] then none
    else
      let kept := digits.take 9
      some (Text.numeral kept * Nat.pow 10 (9 - kept.length), rest.dropWhile Char.isDigit)
  | rest => some (0, rest)

/-- The seconds of an offset from universal time, of less than a day. -/
def readOffset? : List Char → Option Int
  | ['Z'] | ['z'] => some 0
  | sign :: rest => do
    let (hours, rest) ← takeNumber? 2 rest
    let (minutes, rest) ← takeNumber? 2 (← takeOneOf? [':'] rest)
    let seconds : Int := hours * 3600 + minutes * 60
    if rest ≠ [] ∨ minutes ≥ 60 ∨ seconds ≥ secondsInDay then none
    else if sign = '+' then some seconds
    else if sign = '-' ∨ sign = '\u2212' then some (-seconds)
    else none
  | [] => none

def Instant.ofStamp? (stamp : String) : Option Instant := do
  let (year, rest) ← takeNumber? 4 stamp.toList
  let (month, rest) ← takeNumber? 2 (← takeOneOf? ['-'] rest)
  let (day, rest) ← takeNumber? 2 (← takeOneOf? ['-'] rest)
  let (hour, rest) ← takeNumber? 2 (← takeOneOf? ['T', 't', ' '] rest)
  let (minute, rest) ← takeNumber? 2 (← takeOneOf? [':'] rest)
  let (second, rest) ← takeNumber? 2 (← takeOneOf? [':'] rest)
  let (nanos, rest) ← takeFraction? rest
  let offset ← readOffset? rest
  let date : Date := ⟨year, month, day⟩
  if !date.isValid || hour ≥ 24 || minute ≥ 60 || second > 60 then none
  else
    let leap := if second = 60 then 1 else 0
    let time : Int := hour * 3600 + minute * 60 + (second - leap : Nat)
    some ⟨date.dayNumber * secondsInDay + time - offset, nanos + leap * nanosInSecond⟩

end DiceBot.Time
