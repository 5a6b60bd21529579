import DiceBot.Database.Location
import DiceBot.Database.Schema

/-!
Databases in files: opening the one at an address, and keeping it when it is closed.
-/

namespace DiceBot.Database

/-- What a file is to a database. -/
inductive Slot where
  | absent
  | holds (state : State)
  /-- There is no database and none can be made. -/
  | unusable
  deriving DecidableEq, Repr

/-- The files that databases are kept in. Files are known by their paths, of which a name resolves
to one unless its directory is missing. -/
structure Disk where
  resolve : (name : String) → Option String
  slots : List (String × Slot)

namespace Disk

def slot (d : Disk) (name : String) : Slot :=
  match d.resolve name with
  | none => .unusable
  | some path => (d.slots.lookup path).getD .absent

def put (d : Disk) (name : String) (s : State) : Disk :=
  match d.resolve name with
  | none => d
  | some path => { d with slots := (path, .holds s) :: d.slots }

/-- Opens the database at a location. A file that is not there is made, unless it is only read. -/
def openAt (d : Disk) (l : Location) : Except ConnectError State :=
  match l.target with
  | .memory => .ok .new
  | .file name =>
    match d.slot name with
    | .holds s => .ok s
    | .absent => if l.readOnly then .error ⟨"unable to open database file"⟩ else .ok .new
    | .unusable => .error ⟨"unable to open database file"⟩

def keepAt (d : Disk) (l : Location) (s : State) : Disk :=
  match l.target with
  | .memory => d
  | .file name => d.put name s

/-- Opens the database at an address, which makes its file. -/
def connect (d : Disk) (url : String) : Except ConnectError (Location × State) :=
  match Location.ofUrl url with
  | .error error => .error error
  | .ok l => (d.openAt l).map fun s => (l, s)

end Disk

/-- Changes a database, unless it is opened to be read only: then nothing may change. -/
def Location.change {α : Type} (l : Location)
    (change : State → Except MigrationError α × State) (s : State) :
    Except MigrationError α × State :=
  let (result, changed) := change s
  if l.isFixed ∧ changed ≠ s then (.error (.query ⟨"attempt to write a readonly database"⟩), s)
  else (result, changed)

end DiceBot.Database
