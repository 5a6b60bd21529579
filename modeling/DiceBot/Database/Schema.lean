/-!
A database and the ledger of the migrations that were applied to it. There is one migration; it
makes the table of teams.
-/

namespace DiceBot.Database

/-- A value in a column of text: text or, when it was put there by other means, bytes. -/
inductive Cell where
  | text (value : String)
  | bytes (value : List UInt8)
  deriving DecidableEq, Repr

structure Row where
  id : Cell
  token : Cell
  botId : Cell
  botToken : Cell
  addedAt : Cell
  updatedAt : Cell
  deriving DecidableEq, Repr

structure Entry where
  version : Int
  succeeded : Bool
  /-- Whether the migration is still the one that was applied. -/
  genuine : Bool
  deriving DecidableEq, Repr

inductive Ledger where
  | absent
  | entries (list : List Entry)
  /-- A table of the ledger's name that is no ledger. -/
  | unusable
  deriving DecidableEq, Repr

structure State where
  closed : Bool
  ledger : Ledger
  /-- The rows of the table of teams, if there is one. -/
  teams : Option (List Row)
  deriving DecidableEq, Repr

def State.new : State := ⟨false, .absent, none⟩

/-- A database that does not answer, with what is wrong. -/
structure QueryError where
  detail : String
  deriving DecidableEq, Repr

def QueryError.closed : QueryError := ⟨"the database is closed"⟩

def QueryError.noLedger : QueryError := ⟨"the ledger of migrations has other columns"⟩

def QueryError.noTable : QueryError := ⟨"no such table: roll_teams"⟩

inductive MigrationError where
  | query (error : QueryError)
  /-- A migration was begun and not finished. -/
  | unfinished (version : Int)
  /-- The ledger holds a migration that is not known. -/
  | unknown (version : Int)
  /-- A migration was changed after it was applied. -/
  | changed (version : Int)
  deriving DecidableEq, Repr

def MigrationError.message : MigrationError → String
  | .query error => "while executing migrations: " ++ error.detail
  | .unfinished version => "migration " ++ toString version ++ " is partially applied"
  | .unknown version => "migration " ++ toString version ++ " was applied and is missing now"
  | .changed version => "migration " ++ toString version ++ " was changed after it was applied"

def version : Int := 1

namespace State

/-- The entries of the ledger; none when there is no ledger yet. -/
def entries (s : State) : Except QueryError (List Entry) :=
  if s.closed then .error .closed
  else match s.ledger with
    | .absent => .ok []
    | .entries list => .ok list
    | .unusable => .error .noLedger

/-- The versions that were applied with success. -/
def applied (s : State) : Except QueryError (List Int) :=
  s.entries.map fun list => (list.filter Entry.succeeded).map Entry.version

/-- How many migrations are still to be applied. -/
def pending (s : State) : Except QueryError Nat :=
  s.applied.map fun versions => if versions.contains version then 0 else 1

/-- The entries of a ledger that is in order: all are finished and known. -/
def sound (s : State) : Except MigrationError (List Entry) :=
  match s.entries with
  | .error error => .error (.query error)
  | .ok list =>
    match list.find? (fun e => !e.succeeded) with
    | some e => .error (.unfinished e.version)
    | none =>
      match list.find? (fun e => e.version ≠ version) with
      | some e => .error (.unknown e.version)
      | none => .ok list

/-- Applies the migration unless the ledger has it. A table of teams that is there already stays as
it is. -/
def migrate (s : State) : Except MigrationError Unit × State :=
  match s.sound with
  | .error error => (.error error, s)
  | .ok list =>
    match list.find? (fun e => e.version = version) with
    | some e => if e.genuine then (.ok (), s) else (.error (.changed e.version), s)
    | none =>
      (.ok (), { s with
        ledger := .entries (list ++ [⟨version, true, true⟩])
        teams := some (s.teams.getD []) })

/-- Reverts the latest migration, if any was applied with success, and gives its version. -/
def revert (s : State) : Except MigrationError (Option Int) × State :=
  match s.applied with
  | .error error => (.error (.query error), s)
  | .ok versions =>
    match versions.max? with
    | none => (.ok none, s)
    | some latest =>
      match s.sound with
      | .error error => (.error error, s)
      | .ok list =>
        (.ok (some latest), { s with
          ledger := .entries (list.filter fun e => e.version ≠ version)
          teams := none })

/-- The names of the table of teams and its index, where they are. -/
def names (s : State) : Except QueryError (List String) :=
  if s.closed then .error .closed
  else .ok (if s.teams.isSome then ["idx_roll_teams_bot_id", "roll_teams"] else [])

def rows (s : State) : Except QueryError (List Row) :=
  if s.closed then .error .closed
  else match s.teams with
    | none => .error .noTable
    | some rows => .ok rows

def find (s : State) (id : String) : Except QueryError (Option Row) :=
  s.rows.map fun rows => rows.find? fun r => r.id = .text id

end State

end DiceBot.Database
