/-!
Text as bytes in UTF-8, read back strictly or with a mark in place of what is no text.
-/

namespace DiceBot.Bytes

def utf8 (s : String) : List UInt8 := s.toUTF8.data.toList

/-- The text that the bytes encode, if they encode one. -/
def ofUtf8? (bytes : List UInt8) : Option String := String.fromUTF8? ⟨bytes.toArray⟩

/-- A byte that continues a character, between two bounds. -/
def continues (low high b : UInt8) : Bool := low ≤ b && b ≤ high

/-- The character at the start of the bytes, or none with the longest start of a character that is
not finished; and what follows. -/
def takeChar : List UInt8 → Option Char × List UInt8
  | [] => (none, [])
  | a :: rest =>
    let bits (b : UInt8) : Nat := b.toNat % 64
    let two (low high : UInt8) (rest : List UInt8) (top : Nat) : Option Char × List UInt8 :=
      match rest with
      | b :: rest' =>
        if continues low high b then (some (Char.ofNat (top * 64 + bits b)), rest') else (none, rest)
      | [] => (none, rest)
    let three (low high : UInt8) (rest : List UInt8) (top : Nat) : Option Char × List UInt8 :=
      match rest with
      | b :: rest' =>
        if continues low high b then two 0x80 0xBF rest' (top * 64 + bits b) else (none, rest)
      | [] => (none, rest)
    let four (low high : UInt8) (rest : List UInt8) (top : Nat) : Option Char × List UInt8 :=
      match rest with
      | b :: rest' =>
        if continues low high b then three 0x80 0xBF rest' (top * 64 + bits b) else (none, rest)
      | [] => (none, rest)
    if a < 0x80 then (some (Char.ofNat a.toNat), rest)
    else if 0xC2 ≤ a && a ≤ 0xDF then two 0x80 0xBF rest (a.toNat % 32)
    else if a == 0xE0 then three 0xA0 0xBF rest 0
    else if a == 0xED then three 0x80 0x9F rest 13
    else if 0xE1 ≤ a && a ≤ 0xEF then three 0x80 0xBF rest (a.toNat % 16)
    else if a == 0xF0 then four 0x90 0xBF rest 0
    else if 0xF1 ≤ a && a ≤ 0xF3 then four 0x80 0xBF rest (a.toNat % 8)
    else if a == 0xF4 then four 0x80 0x8F rest 4
    else (none, rest)

/-- Reads characters until the bytes end; each takes at least one byte of the fuel. -/
def markedChars : (fuel : Nat) → List UInt8 → List Char
  | 0, _ => []
  | _, [] => []
  | fuel + 1, bytes =>
    let (c, rest) := takeChar bytes
    c.getD '\uFFFD' :: markedChars fuel rest

/-- The text of the bytes, with a replacement character for every longest start of a character that
is not finished and for every byte that starts none. -/
def ofUtf8Marked (bytes : List UInt8) : String := String.ofList (markedChars bytes.length bytes)

end DiceBot.Bytes
