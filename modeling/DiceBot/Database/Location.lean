import DiceBot.Web.Form

/-!
Addresses of databases: which file one is kept in, or that it is kept in memory.
-/

namespace DiceBot.Database

inductive Target where
  /-- A new database, for as long as it is open. -/
  | memory
  | file (name : String)
  deriving DecidableEq, Repr

structure Location where
  target : Target
  /-- Nothing is written, and no file is made. -/
  readOnly : Bool
  /-- The file is taken to never change. It is made if it is not there, and nothing is written. -/
  immutable : Bool
  deriving DecidableEq, Repr

/-- A file that is opened to be read only. A database in memory changes as long as it is open. -/
def Location.isFixed (l : Location) : Bool := l.readOnly || (l.immutable && l.target ≠ .memory)

structure ConnectError where
  detail : String
  deriving DecidableEq, Repr

/-- A text without a start that may stand there more than once; each time takes some of the fuel. -/
def dropStarts (start : List Char) : (fuel : Nat) → List Char → List Char
  | 0, s => s
  | fuel + 1, s =>
    match Text.dropStart? start s with
    | some rest => dropStarts start fuel rest
    | none => s

def withoutScheme (url : List Char) : List Char :=
  let url := dropStarts "sqlite://".toList url.length url
  dropStarts "sqlite:".toList url.length url

def fileSystems : List String := ["unix", "unix-dotfile", "unix-excl", "unix-none"]

/-- A parameter of an address: how the database is opened. -/
def Location.withParameter (l : Location) (parameter : String × String) :
    Except ConnectError Location :=
  match parameter with
  | ("mode", "ro") => .ok { l with readOnly := true }
  | ("mode", "rw") | ("mode", "rwc") => .ok l
  | ("mode", "memory") => .ok { l with target := .memory }
  | ("cache", "private") | ("cache", "shared") => .ok l
  | ("immutable", "true") | ("immutable", "1") => .ok { l with immutable := true }
  | ("immutable", "false") | ("immutable", "0") => .ok { l with immutable := false }
  | ("vfs", name) =>
    if fileSystems.contains name then .ok l else .error ⟨"no such file system: " ++ name⟩
  | (name, value) => .error ⟨"unknown parameter " ++ name ++ "=" ++ value⟩

/-- The location that an address gives. Nothing is trimmed; an empty name is kept in memory. -/
def Location.ofUrl (url : String) : Except ConnectError Location :=
  let address := withoutScheme url.toList
  let (name, parameters) := (Text.splitFirst '?' address).getD (address, [])
  match Bytes.ofUtf8? (Web.percentDecode name) with
  | none => .error ⟨"the name of the file is no text"⟩
  | some file =>
    let target := if file = ":memory:" ∨ file = "" then .memory else .file file
    (Web.Form.decodePairs parameters).foldlM Location.withParameter ⟨target, false, false⟩

end DiceBot.Database
