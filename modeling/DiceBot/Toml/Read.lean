import DiceBot.Toml.Scalar

/-!
Reading TOML documents.
-/

namespace DiceBot.Toml

mutual
/-- The value at the start of the text, and what follows it. The depth is the number of brackets
around it. -/
def takeValue? : (fuel : Nat) → (depth : Nat) → List Char → Option (Value × List Char)
  | 0, _, _ => none
  | fuel + 1, depth, s =>
    match s with
    | '"' :: _ | '\'' :: _ => (takeString? s).map fun (text, rest) => (.string text, rest)
    | '[' :: rest =>
      if depth + 1 ≥ depthLimit then none
      else match skipLines? (rest.length + 1) rest with
        | some (']' :: rest) => some (.array [], rest)
        | some rest =>
          (takeItems? fuel (depth + 1) rest).map fun (items, rest) => (.array items, rest)
        | none => none
    | '{' :: rest =>
      if depth + 1 ≥ depthLimit then none
      else match skipSpaces rest with
        | '}' :: rest => some (.table .inline [], rest)
        | rest =>
          (takePairs? fuel (depth + 1) [] rest).map fun (entries, rest) =>
            (.table .inline entries, rest)
    | 't' :: 'r' :: 'u' :: 'e' :: rest => some (.boolean true, rest)
    | 'f' :: 'a' :: 'l' :: 's' :: 'e' :: rest => some (.boolean false, rest)
    | _ =>
      match takeDate? s with
      | some taken => some taken
      | none => takeNumber? s

/-- The items of an array that is not empty, and what follows its bracket. A comma may stand after
the last one. -/
def takeItems? : (fuel : Nat) → (depth : Nat) → List Char → Option (List Value × List Char)
  | 0, _, _ => none
  | fuel + 1, depth, s =>
    match takeValue? fuel depth s with
    | none => none
    | some (item, rest) =>
      match skipLines? (rest.length + 1) rest with
      | some (']' :: rest) => some ([item], rest)
      | some (',' :: rest) =>
        match skipLines? (rest.length + 1) rest with
        | some (']' :: rest) => some ([item], rest)
        | some rest => (takeItems? fuel depth rest).map fun (items, rest) => (item :: items, rest)
        | none => none
      | _ => none

/-- The entries of a table in braces that is not empty, added to some others, and what follows its
brace. -/
def takePairs? : (fuel : Nat) → (depth : Nat) → Entries → List Char → Option (Entries × List Char)
  | 0, _, _, _ => none
  | fuel + 1, depth, entries, s =>
    match takeKey? s with
    | some (key, '=' :: rest) =>
      match takeValue? fuel depth (skipSpaces rest) with
      | none => none
      | some (value, rest) =>
        match entries.insert? value key, skipSpaces rest with
        | some entries, '}' :: rest => some (entries, rest)
        | some entries, ',' :: rest => takePairs? fuel depth entries rest
        | _, _ => none
    | _ => none
end

def openHeader? (array : Bool) (path : List String) (root : Entries) : Option Entries :=
  match path.getLast? with
  | none => none
  | some key =>
    root.update? (if array then Entries.openNext? key else Entries.openTable? key) path.dropLast

/-- Reads the lines of a document, each into the table of the last header. The fuel bounds the
number of lines. -/
def takeLines? : (fuel : Nat) → (path : List String) → Entries → List Char → Option Entries
  | 0, _, _, _ => none
  | fuel + 1, path, root, s =>
    match skipSpaces s with
    | [] => some root
    | '#' :: rest => (afterLine? ('#' :: rest)).bind (takeLines? fuel path root)
    | '\n' :: rest => takeLines? fuel path root rest
    | '\r' :: '\n' :: rest => takeLines? fuel path root rest
    | '[' :: '[' :: rest =>
      match takeKey? rest with
      | some (key, ']' :: ']' :: rest) =>
        (afterLine? rest).bind fun rest =>
          (openHeader? true key root).bind fun root => takeLines? fuel key root rest
      | _ => none
    | '[' :: rest =>
      match takeKey? rest with
      | some (key, ']' :: rest) =>
        (afterLine? rest).bind fun rest =>
          (openHeader? false key root).bind fun root => takeLines? fuel key root rest
      | _ => none
    | rest =>
      match takeKey? rest with
      | some (key, '=' :: rest) =>
        match takeValue? (rest.length + 1) 0 (skipSpaces rest) with
        | none => none
        | some (value, rest) =>
          (afterLine? rest).bind fun rest =>
            (root.update? (Entries.insert? value key) path).bind fun root =>
              takeLines? fuel path root rest
      | _ => none

/-- The entries of a document. A byte order mark may stand at its start. -/
def parse? (text : String) : Option Entries :=
  let s := match text.toList with
    | '\uFEFF' :: rest => rest
    | s => s
  takeLines? (s.length + 1) [] [] s

end DiceBot.Toml
