import DiceBot.Console.Arguments
import DiceBot.Database.Record

/-!
The program: it gathers the environment, the files and random words, runs what the arguments ask
for, prints that and keeps the database.
-/

namespace DiceBot.Main

/-- What is at a path. What is there and cannot be read counts as a directory. -/
def entryAt (path : String) : IO (Option FileEntry) := do
  match ← (IO.FS.readBinFile path).toBaseIO with
  | .ok content => return some (.file content.toList)
  | .error (.noFileOrDirectory ..) => return none
  | .error _ => return some .directory

def settingsFiles : IO Files := do
  let found ← Files.usualPaths.mapM fun path => return (path, ← entryAt path)
  return ⟨fun path => (found.lookup path).join⟩

/-- A variable as the bytes of its name, an equals sign and the bytes of its value. -/
def assignment? (bytes : List UInt8) : Option (String × Option String) := do
  let (name, value) ← Text.splitFirst 61 bytes
  return (← Bytes.ofUtf8? name, Bytes.ofUtf8? value)

def environment : IO Environment := do
  match ← (IO.FS.readBinFile "/proc/self/environ").toBaseIO with
  | .ok content => return .ofList ((List.splitOn 0 content.toList).filterMap assignment?)
  | .error _ => return .ofList []

/-- The name of the file that the settings put the database in. -/
def databaseFile? (files : Files) (env : Environment) : Option String :=
  match Settings.load files env .usual with
  | .error _ => none
  | .ok settings =>
    match Database.Location.ofUrl settings.databaseUrl with
    | .ok ⟨.file name, _, _⟩ => some name
    | _ => none

/-- The disk as far as one file is concerned. -/
def diskOf (name : String) : IO Database.Disk := do
  let above := String.ofList (name.toList.reverse.dropWhile (· ≠ '/')).reverse
  let isThere := match ← (IO.FS.realPath (if above = "" then "." else above)).toBaseIO with
    | .ok _ => true
    | .error _ => false
  let slot := match ← entryAt name with
    | none => Database.Slot.absent
    | some (.file content) => .ofBytes content
    | some .directory => .unusable
  return ⟨fun name => if isThere then some name else none, [(name, slot)]⟩

def randomWords (count : Nat) : IO (List UInt32) :=
  (List.range count).mapM fun _ => return UInt32.ofNat (← IO.rand 0 (Word.count32 - 1))

def run (arguments : List String) : IO UInt32 := do
  let files ← settingsFiles
  let env ← environment
  let words ← randomWords 1000
  let file := databaseFile? files env
  let disk ← match file with
    | some name => diskOf name
    | none => pure ⟨fun _ => none, []⟩
  let (printed, kept, _) := Console.program arguments files env .ofWords disk words
  if let some name := file then
    if kept.slot name ≠ disk.slot name then
      if let some content := (kept.slot name).toBytes? then
        IO.FS.writeBinFile name ⟨content.toArray⟩
  IO.print printed.out
  IO.eprint printed.err
  return UInt32.ofNat printed.exitCode

end DiceBot.Main

def main (arguments : List String) : IO UInt32 := DiceBot.Main.run arguments
