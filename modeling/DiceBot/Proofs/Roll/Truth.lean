import DiceBot.Proofs.Roll.Grammar
import DiceBot.Proofs.Roll.Outcome
import DiceBot.Proofs.Roll.Reply

/-!
The message of a roll tells the truth: its numbers are those of the dice that were drawn, they agree
with each other and they stay within the limits of the notation.
-/

namespace DiceBot.Roll

variable {σ : Type}

/-- What the message of a roll says. The hit threshold, which is not written, stands with the score
against it. -/
structure Line where
  count : Nat
  sides : Nat
  total : Int
  faces : List Nat
  modifier : Option Modifier
  scored : Option (Nat × Score)

namespace Line

/-- The message of a user's roll. The amount of a modifier stands behind its sign, and what is
critical of the hits and of the misses stands behind them, where there is any. -/
def text (l : Line) (user : String) : String :=
  "_" ++ user ++ " rolled " ++ toString l.count ++ " " ++ toString l.sides ++ "-sided " ++
  (if l.count = 1 then "die" else "dice") ++ ":_  *" ++ toString l.total ++ "*  ( " ++
  ",  ".intercalate (l.faces.map toString) ++ " )" ++
  (match l.modifier with
    | none => ""
    | some ⟨.plus, amount⟩ => "  + " ++ toString amount
    | some ⟨.minus, amount⟩ => "  - " ++ toString amount) ++
  (match l.scored with
    | none => ""
    | some (_, score) =>
      "  with " ++ toString score.hits ++ (if score.hits = 1 then " hit" else " hits") ++
      (if score.criticalHits = 0 then ""
        else " (" ++ toString score.criticalHits ++ " critical)") ++
      " and " ++ toString score.misses ++ (if score.misses = 1 then " miss" else " misses") ++
      (if score.criticalMisses = 0 then ""
        else " (" ++ toString score.criticalMisses ++ " critical)"))

/-- The numbers of a line follow from its faces and stay within the limits. -/
structure Truthful (l : Line) : Prop where
  count_range : 1 ≤ l.count ∧ l.count ≤ 100
  sides_range : 2 ≤ l.sides ∧ l.sides ≤ 100
  faces_length : l.faces.length = l.count
  face_range : ∀ face ∈ l.faces, 1 ≤ face ∧ face ≤ l.sides
  amount_le : ∀ m, l.modifier = some m → m.amount ≤ 100
  total_eq : l.total = match l.modifier with
    | none => (l.faces.sum : Int)
    | some ⟨.plus, amount⟩ => l.faces.sum + amount
    | some ⟨.minus, amount⟩ => l.faces.sum - amount
  threshold_le : ∀ threshold score, l.scored = some (threshold, score) → threshold ≤ l.sides
  score_eq : ∀ threshold score, l.scored = some (threshold, score) →
    score.criticalHits = l.faces.count l.sides ∧
    score.criticalMisses = (if 2 ≤ threshold then l.faces.count 1 else 0) ∧
    score.hits = l.faces.countP (threshold ≤ ·) + score.criticalHits ∧
    score.misses = l.faces.countP (· < threshold) + score.criticalMisses ∧
    score.hits + score.misses = l.count + score.criticalHits + score.criticalMisses

/-- The line of a request for which faces were drawn. -/
def ofFaces (r : Request) (faces : List Nat) : Line where
  count := r.count
  sides := r.sides
  total := (r.tally faces).total
  faces := faces
  modifier := r.modifier
  scored := r.threshold.map fun threshold => (threshold, .ofFaces threshold r.sides faces)

end Line

/-- A request as the notation lets it be. -/
structure Request.Limited (r : Request) : Prop where
  count_range : 1 ≤ r.count ∧ r.count ≤ 100
  sides_range : 2 ≤ r.sides ∧ r.sides ≤ 100
  amount_le : ∀ m, r.modifier = some m → m.amount ≤ 100
  threshold_le : ∀ t, r.threshold = some t → t ≤ r.sides

/-- Only the threshold of a split may be out of reach. -/
theorem Split.request_limited (p : Split)
    (ht : ∀ t, p.request.threshold = some t → t ≤ p.request.sides) : p.request.Limited where
  count_range := by
    unfold Split.request
    dsimp only
    split <;> omega
  sides_range := by
    unfold Split.request
    dsimp only
    omega
  amount_le := by
    intro m hm
    obtain ⟨⟨sign, digits⟩, -, rfl⟩ := Option.map_eq_some_iff.mp hm
    exact Nat.min_le_right _ _
  threshold_le := ht

theorem Command.limited_of_parse {text : String} {r : Request}
    (h : parse text = .ok (.roll r)) : r.Limited := by
  rcases parse_cases text with ⟨-, h'⟩ | ⟨-, h'⟩ | ⟨p, hp, h' | ⟨t, h'⟩⟩ | ⟨-, h'⟩
  case inr.inr.inl.inl =>
    cases h.symm.trans h'
    apply p.request_limited
    intro t ht
    by_contra hlt
    cases h.symm.trans ((parse_split hp).1 t ht (Nat.lt_of_not_le hlt))
  all_goals cases h.symm.trans h'

theorem Asks.limited {text : String} {r : Request} (h : Asks text r) : r.Limited :=
  Command.limited_of_parse h

theorem Modifier.note_eq (m : Option Modifier) :
    (m.map Modifier.note).getD "" = match m with
      | none => ""
      | some ⟨.plus, amount⟩ => "  + " ++ toString amount
      | some ⟨.minus, amount⟩ => "  - " ++ toString amount := by
  cases m with
  | none => rfl
  | some m =>
    obtain ⟨sign, amount⟩ := m
    cases sign <;> rfl

theorem message_tally (r : Request) (user : String) (faces : List Nat) :
    message r user (r.tally faces) = (Line.ofFaces r faces).text user := by
  have hm := Modifier.note_eq r.modifier
  unfold message Line.text
  refine congrArg₂ (· ++ ·) (congrArg₂ (· ++ ·) rfl hm) ?_
  simp only [Request.tally, Line.ofFaces]
  cases r.threshold with
  | none => rfl
  | some threshold => simp [Score.note, criticalNote, String.append_assoc]

theorem Line.ofFaces_scored {r : Request} {faces : List Nat} {threshold : Nat} {score : Score}
    (h : (ofFaces r faces).scored = some (threshold, score)) :
    r.threshold = some threshold ∧ score = .ofFaces threshold r.sides faces := by
  obtain ⟨t, ht, he⟩ := Option.map_eq_some_iff.mp h
  cases he
  exact ⟨ht, rfl⟩

theorem Line.ofFaces_truthful {r : Request} (hr : r.Limited) {faces : List Nat}
    (hl : faces.length = r.count) (hf : ∀ face ∈ faces, 1 ≤ face ∧ face ≤ r.sides) :
    (ofFaces r faces).Truthful where
  count_range := hr.count_range
  sides_range := hr.sides_range
  faces_length := hl
  face_range := hf
  amount_le := hr.amount_le
  total_eq := r.tally_total faces
  threshold_le := by
    intro threshold score hs
    exact hr.threshold_le threshold (ofFaces_scored hs).1
  score_eq := by
    intro threshold score hs
    obtain ⟨ht, rfl⟩ := ofFaces_scored hs
    have hc := Score.ofFaces_counts threshold r.sides faces
    rw [hl] at hc
    obtain ⟨hch, hcm, hh, hm⟩ := Score.ofFaces_counts_faces (hr.threshold_le threshold ht) faces
    exact ⟨hch, hcm, hh, hm, hc⟩

/-- What is drawn of the dice to answer a roll command, in drawing order. -/
def drawn (text user : String) (about : About) (dice : Dice σ) (s : σ) : List Draw :=
  (reply text user about dice.recorded (s, [])).2.2

theorem drawn_of_asks {text : String} {r : Request} (h : Asks text r) (user : String)
    (about : About) (dice : Dice σ) (s : σ) :
    drawn text user about dice s = (dice.draw r.sides r.count s).1.map (Draw.mk r.sides) := by
  rw [drawn, reply_of_asks h, Request.evaluate_recorded]
  rfl

theorem drawn_of_not_asks {text : String} (h : ¬ ∃ r, Asks text r) (user : String) (about : About)
    (dice : Dice σ) (s : σ) : drawn text user about dice s = [] := by
  obtain ⟨said, -, he⟩ := reply_of_not_asks h user about dice.recorded (s, [])
  rw [drawn, he]

/-- A record of the draws changes neither the reply nor the state of the dice. -/
theorem reply_recorded (text user : String) (about : About) (dice : Dice σ) (s : σ) :
    reply text user about dice.recorded (s, []) =
      ((reply text user about dice s).1, (reply text user about dice s).2,
        drawn text user about dice s) := by
  unfold drawn reply
  cases Command.parse (if Text.isAllBlank text then "d6" else text) with
  | error e => rfl
  | ok c =>
    cases c with
    | roll r => simp only [Request.evaluate_recorded]
    | help => rfl
    | version => rfl

/-- A blank text asks for what `d6` asks for. -/
theorem reply_blank {text : String} (h : Text.trim text.toList = []) (user : String)
    (about : About) (dice : Dice σ) (s : σ) :
    reply text user about dice s = reply "d6" user about dice s := by
  have hb : Text.isAllBlank text = true := Text.isAllBlank_iff.mpr h
  have hd : Text.isAllBlank "d6" = false := by decide
  simp only [reply, hb, hd, if_true, Bool.false_eq_true, if_false]

theorem truthful_of_rolled {text user : String} {about : About} {dice : Dice σ} (hd : dice.Honest)
    {s : σ} {said : String} (hs : (reply text user about dice s).1 = .rolled said) :
    ∃ l : Line, l.Truthful ∧
      drawn text user about dice s = l.faces.map (Draw.mk l.sides) ∧ said = l.text user := by
  by_cases h : ∃ r, Asks text r
  · obtain ⟨r, hr⟩ := h
    have hlim := hr.limited
    have hpos : 0 < r.sides := Nat.lt_of_lt_of_le (by decide) hlim.sides_range.1
    rw [reply_of_asks hr] at hs
    cases hs
    refine ⟨.ofFaces r (dice.draw r.sides r.count s).1, ?_, drawn_of_asks hr user about dice s,
      message_tally r user _⟩
    exact Line.ofFaces_truthful hlim (dice.length_draw _ _ s) (hd.face_range hpos _ s)
  · obtain ⟨other, ho, he⟩ := reply_of_not_asks h user about dice s
    rw [he] at hs
    cases hs
    cases ho

theorem drawn_of_not_rolled {text user : String} {about : About} {dice : Dice σ} {s : σ}
    (hn : ∀ said, (reply text user about dice s).1 ≠ .rolled said) :
    drawn text user about dice s = [] ∧ (reply text user about dice s).2 = s := by
  by_cases h : ∃ r, Asks text r
  · obtain ⟨r, hr⟩ := h
    rw [reply_of_asks hr] at hn
    exact absurd rfl (hn _)
  · obtain ⟨other, -, he⟩ := reply_of_not_asks h user about dice s
    exact ⟨drawn_of_not_asks h user about dice s, congrArg Prod.snd he⟩

/-- A message about a roll says what was drawn, and no other reply draws anything. The blanks around
a text change neither the reply nor the draws. -/
theorem reply_truthful (text user : String) (about : About) (dice : Dice σ) (hd : dice.Honest)
    (s : σ) :
    reply text user about dice.recorded (s, []) =
      ((reply text user about dice s).1, (reply text user about dice s).2,
        drawn text user about dice s) ∧
    (∀ said, (reply text user about dice s).1 = .rolled said → ∃ l : Line, l.Truthful ∧
      drawn text user about dice s = l.faces.map (Draw.mk l.sides) ∧ said = l.text user) ∧
    ((∀ said, (reply text user about dice s).1 ≠ .rolled said) →
      drawn text user about dice s = [] ∧ (reply text user about dice s).2 = s) ∧
    (Text.trim text.toList = [] →
      reply text user about dice s = reply "d6" user about dice s ∧
      drawn text user about dice s = drawn "d6" user about dice s) ∧
    reply (Text.strip text) user about dice s = reply text user about dice s ∧
    drawn (Text.strip text) user about dice s = drawn text user about dice s := by
  refine ⟨reply_recorded text user about dice s, fun _ => truthful_of_rolled hd,
    drawn_of_not_rolled, ?_, reply_strip text user about dice s, ?_⟩
  · intro hb
    refine ⟨reply_blank hb user about dice s, ?_⟩
    rw [drawn, reply_blank hb, drawn]
  · rw [drawn, reply_strip, drawn]

/-- Dice that count upwards and start again after their highest face. -/
def counting : Dice Nat where
  next sides n := (n % sides + 1, n + 1)

theorem counting_honest : counting.Honest := by
  intro sides n hs
  exact ⟨Nat.le_add_left 1 _, Nat.mod_lt n hs⟩

/-- Three dice less two, of which one shows its highest face and one its lowest. -/
theorem reply_truthful_counting :
    let about : About := ⟨"Slack Roll", "0.2.0", "/roll"⟩
    let said := "_ann rolled 3 6-sided dice:_  *10*  ( 5,  6,  1 )  - 2" ++
      "  with 2 hits (1 critical) and 3 misses (1 critical)"
    counting.Honest ∧ ∃ l : Line, l.Truthful ∧
      drawn " 3D6-2 hit6" "ann" about counting 4 = l.faces.map (Draw.mk l.sides) ∧
      said = l.text "ann" := by
  intro about said
  have hroll : (reply " 3D6-2 hit6" "ann" about counting 4).1 = .rolled said := by decide +kernel
  exact ⟨counting_honest,
    (reply_truthful " 3D6-2 hit6" "ann" about counting counting_honest 4).2.1 said hroll⟩

end DiceBot.Roll
