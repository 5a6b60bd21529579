import DiceBot.Word

/-!
JSON values as they are written, and the ways a record reads its fields from one.

A string whose escapes pair surrogates wrongly is well-formed JSON but denotes no text. A number
keeps its digits and its exponent, so nothing is lost by reading it.
-/

namespace DiceBot.Json

/-- The number `± coefficient · 10 ^ exponent`. It is `integral` when it was written with neither a
point nor an exponent. -/
structure Number where
  negative : Bool
  coefficient : Nat
  exponent : Int
  integral : Bool
  deriving DecidableEq, Repr

inductive Value where
  | null
  | bool (value : Bool)
  | number (value : Number)
  | string (text : Option String)
  | array (items : List Value)
  | object (members : List (Option String × Value))
  deriving Repr

namespace Number

def ofInt (n : Int) : Number := ⟨n < 0, n.natAbs, 0, true⟩

/-- The integer that a numeral writes. A negative zero is not one. -/
def toInt? (n : Number) : Option Int :=
  if n.integral then
    if n.negative then
      if n.coefficient = 0 then none else some (-(n.coefficient : Int))
    else some n.coefficient
  else none

end Number

namespace Value

def text (s : String) : Value := .string (some s)

def int (n : Int) : Value := .number (.ofInt n)

def nat (n : Nat) : Value := .int n

def record (fields : List (String × Value)) : Value :=
  .object (fields.map fun (name, value) => (some name, value))

def list {α : Type} (item : α → Value) (items : List α) : Value := .array (items.map item)

def optional {α : Type} (item : α → Value) : Option α → Value
  | none => .null
  | some a => item a

def text? : Value → Option String
  | .string text => text
  | _ => none

def bool? : Value → Option Bool
  | .bool b => some b
  | _ => none

def int? : Value → Option Int
  | .number n => n.toInt?
  | _ => none

def natBelow? (bound : Nat) (v : Value) : Option Nat :=
  match v.int? with
  | some (.ofNat n) => if n < bound then some n else none
  | _ => none

/-- A number in a word of 32 bits. -/
def word? (v : Value) : Option Nat := v.natBelow? Word.count32

/-- Null is an absent value. -/
def nullable? {α : Type} (item : Value → Option α) : Value → Option (Option α)
  | .null => some none
  | v => (item v).map some

def listOf? {α : Type} (item : Value → Option α) : Value → Option (List α)
  | .array items => items.mapM item
  | _ => none

/-- The values of a record's fields, in the order of their names. An object gives each of them at
most once and may hold other members, as long as every name denotes text. An array gives them in
order, at least `required` of them and nothing more. -/
def fields? (names : List String) (required : Nat) : Value → Option (List (Option Value))
  | .object members =>
    if members.any (fun m => m.1.isNone) then none
    else names.mapM fun name =>
      match members.filter fun m => m.1 == some name with
      | [] => some none
      | [m] => some (some m.2)
      | _ => none
  | .array items =>
    if items.length < required ∨ names.length < items.length then none
    else some (items.map some ++ List.replicate (names.length - items.length) none)
  | _ => none

end Value

/-- A field that has to be given. -/
def needed {α : Type} (item : Value → Option α) (field : Option Value) : Option α := field.bind item

/-- A field with a value of its own when it is not given. -/
def withDefault {α : Type} (default : α) (item : Value → Option α) : Option Value → Option α
  | none => some default
  | some v => item v

end DiceBot.Json
