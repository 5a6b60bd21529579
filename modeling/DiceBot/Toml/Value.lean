/-!
TOML values, and how lines of a document add to its tables.
-/

namespace DiceBot.Toml

/-- How a table came to be. A table in braces is closed. A table that a longer header or a dotted
key needed may still grow, each in its own way. -/
inductive Origin where
  | inline
  | header
  | implied
  | dotted
  deriving DecidableEq, Repr

/-- A value without what no setting needs: the digits of floats and the fields of dates.
`tables` is an array that grows by headers, its items are tables. -/
inductive Value where
  | string (text : String)
  | integer (value : Int)
  | float
  | boolean (value : Bool)
  | date
  | array (items : List Value)
  | tables (items : List Value)
  | table (origin : Origin) (entries : List (String × Value))
  deriving Repr

abbrev Entries := List (String × Value)

namespace Entries

def find? (key : String) (entries : Entries) : Option Value := entries.lookup key

def replace (key : String) (value : Value) (entries : Entries) : Entries :=
  entries.map fun entry => if entry.1 = key then (key, value) else entry

def add (key : String) (value : Value) (entries : Entries) : Entries := entries ++ [(key, value)]

def ofLast? (items : List Value) : Option Entries :=
  match items.getLast? with
  | some (.table _ entries) => some entries
  | _ => none

def replaceLast (items : List Value) (entries : Entries) : Value :=
  .tables (items.dropLast ++ [.table .header entries])

/-- Adds a value under a dotted key. The key must be new, and the table it goes to must have been
opened by dotted keys only. -/
def insert? (value : Value) : (key : List String) → Entries → Option Entries
  | [], _ => none
  | [k], entries => if (entries.find? k).isSome then none else some (entries.add k value)
  | k :: k' :: rest, entries =>
    match entries.find? k with
    | none => (insert? value (k' :: rest) []).map fun inner => entries.add k (.table .dotted inner)
    | some (.table .dotted inner) =>
      (insert? value (k' :: rest) inner).map fun inner => entries.replace k (.table .dotted inner)
    | some (.table .implied inner) =>
      if rest = [] then none
      else (insert? value (k' :: rest) inner).map fun inner =>
        entries.replace k (.table .implied inner)
    | some (.tables items) =>
      if rest = [] then none
      else (ofLast? items).bind fun inner =>
        (insert? value (k' :: rest) inner).map fun inner =>
          entries.replace k (replaceLast items inner)
    | some _ => none

/-- Changes the table at a path of headers. Tables on the way are implied, arrays of tables stand
for their last table. -/
def update? (change : Entries → Option Entries) : (path : List String) → Entries → Option Entries
  | [], entries => change entries
  | k :: rest, entries =>
    match entries.find? k with
    | none => (update? change rest []).map fun inner => entries.add k (.table .implied inner)
    | some (.table origin inner) =>
      if origin = .inline then none
      else (update? change rest inner).map fun inner => entries.replace k (.table origin inner)
    | some (.tables items) =>
      (ofLast? items).bind fun inner =>
        (update? change rest inner).map fun inner => entries.replace k (replaceLast items inner)
    | some _ => none

/-- Opens the table of a header: it is new, or it was only implied so far. -/
def openTable? (key : String) (entries : Entries) : Option Entries :=
  match entries.find? key with
  | none => some (entries.add key (.table .header []))
  | some (.table .implied inner) => some (entries.replace key (.table .header inner))
  | some _ => none

def openNext? (key : String) (entries : Entries) : Option Entries :=
  match entries.find? key with
  | none => some (entries.add key (.tables [.table .header []]))
  | some (.tables items) => some (entries.replace key (.tables (items ++ [.table .header []])))
  | some _ => none

def contains (entries : Entries) : (path : List String) → Bool
  | [] => true
  | k :: rest =>
    match entries.find? k with
    | none => false
    | some (.table _ inner) => contains inner rest
    | some _ => rest.isEmpty

end Entries
end DiceBot.Toml
