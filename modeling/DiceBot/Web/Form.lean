import DiceBot.Bytes.Hex
import DiceBot.Bytes.Utf8
import DiceBot.Text.Split

/-!
Form encoding: pairs of names and values as the text of a query or of a form that is sent.
-/

namespace DiceBot.Web

def percentByte (b : UInt8) : List Char :=
  '%' :: (Bytes.Hex.encode [b]).map Char.toUpper

def hexPair? (high low : Char) : Option UInt8 :=
  match Bytes.Hex.digit? high, Bytes.Hex.digit? low with
  | some high, some low => some (UInt8.ofNat (16 * high + low))
  | _, _ => none

/-- The bytes of a text, with a percent sign and two digits for one byte. Any other percent sign
stands for itself. -/
def percentDecode : List Char → List UInt8
  | [] => []
  | '%' :: high :: low :: rest =>
    match hexPair? high low with
    | some b => b :: percentDecode rest
    | none => 0x25 :: percentDecode (high :: low :: rest)
  | c :: rest => Bytes.utf8 (String.singleton c) ++ percentDecode rest

namespace Form

/-- The bytes that a form writes as they are. -/
def isPlain (b : UInt8) : Bool :=
  let c := Char.ofNat b.toNat
  b < 0x80 && (c.isAlphanum || c == '*' || c == '-' || c == '.' || c == '_')

def encodeByte (b : UInt8) : List Char :=
  if isPlain b then [Char.ofNat b.toNat]
  else if b = 0x20 then ['+']
  else percentByte b

def encode (s : String) : List Char := (Bytes.utf8 s).flatMap encodeByte

def encodePair (pair : String × String) : List Char := encode pair.1 ++ ['='] ++ encode pair.2

def encodePairs (pairs : List (String × String)) : List Char :=
  ['&'].intercalate (pairs.map encodePair)

/-- The text of a name or a value: a plus sign is a space, and bytes that are no text are marked. -/
def decode (s : List Char) : String :=
  Bytes.ofUtf8Marked (percentDecode (s.map fun c => if c = '+' then ' ' else c))

/-- A piece of a form; without an equals sign it is a name with an empty value. -/
def decodePair (piece : List Char) : String × String :=
  match Text.splitFirst '=' piece with
  | some (name, value) => (decode name, decode value)
  | none => (decode piece, "")

def decodePairs (s : List Char) : List (String × String) :=
  ((List.splitOn '&' s).filter (· ≠ [])).map decodePair

/-- The values of the named fields. No named field may be given twice. -/
def fields? (names : List String) (pairs : List (String × String)) :
    Option (List (Option String)) :=
  names.mapM fun name =>
    match pairs.filter fun pair => pair.1 = name with
    | [] => some none
    | [pair] => some (some pair.2)
    | _ => none

end Form
end DiceBot.Web
