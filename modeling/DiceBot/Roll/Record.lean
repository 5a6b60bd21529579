import DiceBot.Json.Value
import DiceBot.Roll.Outcome

/-!
Requests and outcomes as JSON records.
-/

namespace DiceBot.Roll

open Json (Value)

/-- A sign is its name, or an object whose only member has that name and no content. -/
def Sign.ofJson? : Value → Option Sign
  | .string (some "plus") | .object [(some "plus", .null)] => some .plus
  | .string (some "minus") | .object [(some "minus", .null)] => some .minus
  | _ => none

def Modifier.ofJson? (v : Value) : Option Modifier := do
  match ← v.fields? ["sign", "amount"] 2 with
  | [sign, amount] => return ⟨← Json.needed Sign.ofJson? sign, ← Json.needed Value.word? amount⟩
  | _ => none

/-- Numbers are words of 32 bits, and nothing is moved into a range. -/
def Request.ofJson? (v : Value) : Option Request := do
  match ← v.fields? ["count", "sides", "modifier", "hit_threshold"] 4 with
  | [count, sides, modifier, threshold] =>
    return {
      count := ← Json.needed Value.word? count
      sides := ← Json.needed Value.word? sides
      modifier := ← Json.withDefault none (Value.nullable? Modifier.ofJson?) modifier
      threshold := ← Json.withDefault none (Value.nullable? Value.word?) threshold }
  | _ => none

/-- A total is a word of 64 bits with a sign. -/
def totalOfJson? (v : Value) : Option Int := v.int?.filter Word.holdsSigned64

def Outcome.ofJson? (v : Value) : Option Outcome := do
  match ← v.fields? ["results", "sum", "hits", "hits_critical", "misses", "misses_critical"] 6 with
  | [faces, total, hits, criticalHits, misses, criticalMisses] =>
    return {
      faces := ← Json.needed (Value.listOf? Value.word?) faces
      total := ← Json.needed totalOfJson? total
      score := {
        hits := ← Json.needed Value.word? hits
        criticalHits := ← Json.needed Value.word? criticalHits
        misses := ← Json.needed Value.word? misses
        criticalMisses := ← Json.needed Value.word? criticalMisses } }
  | _ => none

def Modifier.toJson (m : Modifier) : Value :=
  .record [("sign", .text (match m.sign with | .plus => "plus" | .minus => "minus")),
    ("amount", .nat m.amount)]

def Request.toJson (r : Request) : Value :=
  .record [("count", .nat r.count), ("sides", .nat r.sides),
    ("modifier", .optional Modifier.toJson r.modifier),
    ("hit_threshold", .optional .nat r.threshold)]

def Outcome.toJson (o : Outcome) : Value :=
  .record [("results", .list .nat o.faces), ("sum", .int o.total),
    ("hits", .nat o.score.hits), ("hits_critical", .nat o.score.criticalHits),
    ("misses", .nat o.score.misses), ("misses_critical", .nat o.score.criticalMisses)]

end DiceBot.Roll
