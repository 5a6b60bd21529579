import DiceBot.Bytes.Hex
import DiceBot.Bytes.Utf8
import DiceBot.Database.Disk
import DiceBot.Json.Read
import DiceBot.Json.Write

/-!
Databases as JSON records, which is how a file holds them, after a start that tells it from others.
-/

namespace DiceBot.Database

open Json (Value)

/-- Text is itself, and bytes are a record of their digits. -/
def Cell.toJson : Cell → Value
  | .text value => .text value
  | .bytes value => .record [("bytes", .text (String.ofList (Bytes.Hex.encode value)))]

def Cell.ofJson? : Value → Option Cell
  | .string value => value.map .text
  | .object [(some "bytes", .string (some digits))] =>
    if digits = "" then some (.bytes []) else (Bytes.Hex.decode? digits.toList).map .bytes
  | _ => none

def Row.toJson (r : Row) : Value :=
  .list Cell.toJson [r.id, r.token, r.botId, r.botToken, r.addedAt, r.updatedAt]

def Row.ofJson? (v : Value) : Option Row := do
  match ← v.listOf? Cell.ofJson? with
  | [id, token, botId, botToken, addedAt, updatedAt] =>
    return ⟨id, token, botId, botToken, addedAt, updatedAt⟩
  | _ => none

def Entry.toJson (e : Entry) : Value :=
  .array [.int e.version, .bool e.succeeded, .bool e.genuine]

def Entry.ofJson? : Value → Option Entry
  | .array [version, succeeded, genuine] =>
    return ⟨← version.int?, ← succeeded.bool?, ← genuine.bool?⟩
  | _ => none

/-- A list of entries; null if there is no ledger, and false for a table that is none. -/
def Ledger.toJson : Ledger → Value
  | .absent => .null
  | .entries list => .list Entry.toJson list
  | .unusable => .bool false

def Ledger.ofJson? : Value → Option Ledger
  | .null => some .absent
  | .bool false => some .unusable
  | v => (v.listOf? Entry.ofJson?).map .entries

/-- A file holds no database that is closed. -/
def State.toJson (s : State) : Value :=
  .record [("ledger", s.ledger.toJson), ("teams", .optional (.list Row.toJson) s.teams)]

def State.ofJson? (v : Value) : Option State := do
  match ← v.fields? ["ledger", "teams"] 2 with
  | [ledger, teams] =>
    return ⟨false, ← Json.needed Ledger.ofJson? ledger,
      ← Json.needed (Value.nullable? (Value.listOf? Row.ofJson?)) teams⟩
  | _ => none

/-- How the file of a database starts. -/
def header : List UInt8 := Bytes.utf8 "a database of teams\n"

/-- What a file with the given content is to a database: an empty one is as good as none, and one
that is only the start has nothing in it yet. -/
def Slot.ofBytes (content : List UInt8) : Slot :=
  if content = [] then .absent
  else if !header.isPrefixOf content then .unusable
  else match content.drop header.length with
    | [] => .holds .new
    | _ :: record =>
      match ((Bytes.ofUtf8? record).bind Json.parse?).bind State.ofJson? with
      | some s => .holds s
      | none => .unusable

/-- The content of a file for a slot, if one has to be there. As soon as anything was put into the
database it is no text. -/
def Slot.toBytes? : Slot → Option (List UInt8)
  | .holds s => some (header ++
      if s = .new then [] else 0xff :: Bytes.utf8 (s.toJson.renderLines "" ++ "\n"))
  | _ => none

end DiceBot.Database
