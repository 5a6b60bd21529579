import DiceBot.Proofs.Text.Trim
import DiceBot.Roll.Reply

/-!
What a text asks of the dice, and the reply that it gets. The blanks around a text do not count.
-/

namespace DiceBot.Roll

theorem Command.parse_strip (text : String) : parse (Text.strip text) = parse text := by
  simp only [parse, Text.toList_strip, Text.trim_trim]

/-- What a text asks of the dice. A blank text asks for one six-sided die. -/
def Asks (text : String) (r : Request) : Prop :=
  Command.parse (if Text.isAllBlank text then "d6" else text) = .ok (.roll r)

theorem parse_blank_strip (text : String) :
    Command.parse (if Text.isAllBlank (Text.strip text) then "d6" else Text.strip text) =
      Command.parse (if Text.isAllBlank text then "d6" else text) := by
  rw [Text.isAllBlank_strip]
  split
  · rfl
  · exact Command.parse_strip text

theorem asks_strip {text : String} {r : Request} : Asks (Text.strip text) r ↔ Asks text r := by
  rw [Asks, parse_blank_strip, Asks]

theorem Asks.unique {text : String} {r r' : Request} (h : Asks text r) (h' : Asks text r') :
    r = r' := by
  have := h.symm.trans h'
  cases this
  rfl

/-- The blanks around a text change neither the reply nor what is drawn. -/
theorem reply_strip {σ : Type} (text user : String) (about : About) (dice : Dice σ) (s : σ) :
    reply (Text.strip text) user about dice s = reply text user about dice s := by
  rw [reply, parse_blank_strip, reply]

theorem reply_of_asks {σ : Type} {text : String} {r : Request} (h : Asks text r) (user : String)
    (about : About) (dice : Dice σ) (s : σ) :
    reply text user about dice s =
      (.rolled (message r user (r.evaluate dice s).1), (r.evaluate dice s).2) := by
  rw [reply, show Command.parse (if Text.isAllBlank text then "d6" else text) = _ from h]

/-- Only a text that asks for a roll gets one; any other leaves the dice alone. -/
theorem reply_of_not_asks {σ : Type} {text : String} (h : ¬ ∃ r, Asks text r) (user : String)
    (about : About) (dice : Dice σ) (s : σ) :
    ∃ said, said.isRoll = false ∧ reply text user about dice s = (said, s) := by
  rw [reply]
  cases hp : Command.parse (if Text.isAllBlank text then "d6" else text) with
  | error e => exact ⟨_, rfl, rfl⟩
  | ok c =>
    cases c with
    | roll r => exact absurd ⟨r, hp⟩ h
    | help => exact ⟨_, rfl, rfl⟩
    | version => exact ⟨_, rfl, rfl⟩

end DiceBot.Roll
