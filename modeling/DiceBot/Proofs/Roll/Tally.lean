import DiceBot.Proofs.Roll.Truth
import Mathlib.Algebra.Order.BigOperators.Group.List
import Mathlib.Algebra.Order.Group.Nat

/-!
What an evaluation counts, and that it may count in words: the counters of a roll fit into 32 bits
and its total into 64, for as many dice as half of the numbers of a word.
-/

namespace DiceBot

/-- A number that is in a word of 32 bits. -/
def Word.held32? (n : Nat) : Option Nat := if n ≤ largest32 then some n else none

/-- An integer that is in a word of 64 bits with a sign. -/
def Word.heldSigned64? (n : Int) : Option Int := if holdsSigned64 n then some n else none

theorem Word.held32?_eq {n : Nat} (h : n ≤ largest32) : held32? n = some n := if_pos h

theorem Word.heldSigned64?_eq {n : Int} (h : -largestSigned64 - 1 ≤ n) (h' : n ≤ largestSigned64) :
    heldSigned64? n = some n := by
  have hn : holdsSigned64 n = true := by simp [holdsSigned64, h, h']
  exact if_pos hn

namespace Roll

variable {σ : Type}

namespace Score

/-- `mark` in words of 32 bits: there is no score when a counter runs over. -/
def markInWords? (threshold sides : Nat) (s : Score) (face : Nat) : Option Score :=
  if face ≥ threshold then
    if face = sides then do
      let hits ← Word.held32? (s.hits + 2)
      let criticalHits ← Word.held32? (s.criticalHits + 1)
      return { s with hits := hits, criticalHits := criticalHits }
    else do
      let hits ← Word.held32? (s.hits + 1)
      return { s with hits := hits }
  else if face = 1 then do
    let misses ← Word.held32? (s.misses + 2)
    let criticalMisses ← Word.held32? (s.criticalMisses + 1)
    return { s with misses := misses, criticalMisses := criticalMisses }
  else do
    let misses ← Word.held32? (s.misses + 1)
    return { s with misses := misses }

/-- The order of the faces does not count. -/
theorem ofFaces_perm {threshold sides : Nat} {faces faces' : List Nat} (h : faces.Perm faces') :
    ofFaces threshold sides faces = ofFaces threshold sides faces' := by
  simp only [ofFaces_eq_counted, counted, h.countP_eq]

/-- A score whose counters are in words of 32 bits. -/
structure InWords (s : Score) : Prop where
  hits : s.hits ≤ Word.largest32
  criticalHits : s.criticalHits ≤ Word.largest32
  misses : s.misses ≤ Word.largest32
  criticalMisses : s.criticalMisses ≤ Word.largest32

theorem markInWords?_eq {threshold sides face : Nat} {s : Score}
    (h : (s.mark threshold sides face).InWords) :
    s.markInWords? threshold sides face = some (s.mark threshold sides face) := by
  obtain ⟨hhits, hcriticalHits, hmisses, hcriticalMisses⟩ := h
  unfold mark at *
  unfold markInWords?
  split
  case isTrue hge =>
    rw [if_pos hge] at hhits hcriticalHits
    split
    case isTrue he =>
      rw [if_pos he] at hhits hcriticalHits
      simp only [Word.held32?_eq hhits, Word.held32?_eq hcriticalHits]
      rfl
    case isFalse he =>
      rw [if_neg he] at hhits
      simp only [Word.held32?_eq hhits]
      rfl
  case isFalse hge =>
    rw [if_neg hge] at hmisses hcriticalMisses
    split
    case isTrue he =>
      rw [if_pos he] at hmisses hcriticalMisses
      simp only [Word.held32?_eq hmisses, Word.held32?_eq hcriticalMisses]
      rfl
    case isFalse he =>
      rw [if_neg he] at hmisses
      simp only [Word.held32?_eq hmisses]
      rfl

/-- Each face adds two to a counter at most. -/
theorem ofFaces_inWords (threshold sides : Nat) {faces : List Nat}
    (h : 2 * faces.length ≤ Word.largest32) : (ofFaces threshold sides faces).InWords := by
  have hcount (p : Nat → Bool) : faces.countP p ≤ faces.length := List.countP_le_length
  rw [ofFaces_eq_counted]
  have h1 := hcount (threshold ≤ ·)
  have h2 := hcount fun f => threshold ≤ f ∧ f = sides
  have h3 := hcount (· < threshold)
  have h4 := hcount fun f => f < threshold ∧ f = 1
  constructor <;> unfold counted <;> dsimp only <;> omega

end Score

namespace Request

/-- The numbers of a request are words of 32 bits, it asks for at most half as many dice as there
are words, and its threshold can be reached. -/
structure Countable (r : Request) : Prop where
  sides_range : 2 ≤ r.sides ∧ r.sides ≤ Word.largest32
  count_le : r.count ≤ 0x7FFFFFFF
  threshold_le : ∀ t, r.threshold = some t → t ≤ r.sides
  amount_le : ∀ m, r.modifier = some m → m.amount ≤ Word.largest32

/-- The notation asks for nothing else. -/
theorem Limited.countable {r : Request} (h : r.Limited) : r.Countable where
  sides_range := ⟨h.sides_range.1, Nat.le_trans h.sides_range.2 (by decide)⟩
  count_le := Nat.le_trans h.count_range.2 (by decide)
  threshold_le := h.threshold_le
  amount_le m hm := Nat.le_trans (h.amount_le m hm) (by decide)

/-- One more face, counted in words. -/
def countInWords? (r : Request) (o : Outcome) (face : Nat) : Option Outcome := do
  let total ← Word.heldSigned64? (o.total + face)
  let score ← match r.threshold with
    | none => some o.score
    | some threshold => o.score.markInWords? threshold r.sides face
  return ⟨o.faces ++ [face], total, score⟩

/-- Dice that are drawn one after another, each counted in words before the next one is drawn. -/
def drawInWords? (r : Request) (dice : Dice σ) : (count : Nat) → Outcome → σ → Option (Outcome × σ)
  | 0, o, s => some (o, s)
  | count + 1, o, s =>
    let (face, s) := dice.next r.sides s
    match r.countInWords? o face with
    | none => none
    | some o => r.drawInWords? dice count o s

/-- The modifier applied in words. -/
def adjustInWords? (r : Request) (total : Int) : Option Int :=
  match r.modifier with
  | none => some total
  | some ⟨.plus, amount⟩ => Word.heldSigned64? (total + amount)
  | some ⟨.minus, amount⟩ => Word.heldSigned64? (total - amount)

/-- The evaluation of a request in words. It has no outcome when a number of it is in no word. -/
def evaluateInWords? (r : Request) (dice : Dice σ) (s : σ) : Option (Outcome × σ) := do
  let (o, s) ← r.drawInWords? dice r.count ⟨[], 0, .zero⟩ s
  let total ← r.adjustInWords? o.total
  return ({ o with total := total }, s)

/-- What has been counted after some faces, the modifier apart. -/
def counted (r : Request) (faces : List Nat) : Outcome where
  faces := faces
  total := (faces.sum : Nat)
  score := match r.threshold with
    | none => .zero
    | some threshold => .ofFaces threshold r.sides faces

theorem tally_eq (r : Request) (faces : List Nat) :
    r.tally faces = { r.counted faces with total := r.adjust (faces.sum : Nat) } := by
  rw [List.sum_eq_foldl]
  rfl

/-- Faces of dice that may be counted. -/
structure Counts (r : Request) (faces : List Nat) : Prop where
  length_le : faces.length ≤ 0x7FFFFFFF
  face_le : ∀ face ∈ faces, face ≤ r.sides

theorem Counts.sum_le {r : Request} (hr : r.Countable) {faces : List Nat} (h : r.Counts faces) :
    faces.sum ≤ 0x7FFFFFFF * Word.largest32 := by
  calc faces.sum ≤ faces.length * r.sides := List.sum_le_card_nsmul faces r.sides h.face_le
    _ ≤ 0x7FFFFFFF * Word.largest32 := Nat.mul_le_mul h.length_le hr.sides_range.2

/-- The next face is counted as if there were no words. -/
theorem countInWords?_eq {r : Request} (hr : r.Countable) {faces : List Nat} {face : Nat}
    (h : r.Counts (faces ++ [face])) :
    r.countInWords? (r.counted faces) face = some (r.counted (faces ++ [face])) := by
  have htotal : Word.heldSigned64? ((r.counted faces).total + face) =
      some (r.counted (faces ++ [face])).total := by
    have hsum : (faces ++ [face]).sum = faces.sum + face := by simp
    have hle := h.sum_le hr
    simp only [counted, hsum, Int.natCast_add]
    apply Word.heldSigned64?_eq
    · unfold Word.largestSigned64
      omega
    · unfold Word.largest32 at hle
      unfold Word.largestSigned64
      omega
  have hlength : 2 * (faces ++ [face]).length ≤ Word.largest32 := by
    have hl := h.length_le
    unfold Word.largest32
    omega
  unfold countInWords?
  rw [htotal]
  cases ht : r.threshold with
  | none => simp [counted, ht]
  | some threshold =>
    have hwords := Score.ofFaces_inWords threshold r.sides hlength
    rw [Score.ofFaces_concat] at hwords
    simp [counted, ht, Score.markInWords?_eq hwords, Score.ofFaces_concat]

theorem drawInWords?_eq {r : Request} (hr : r.Countable) (dice : Dice σ) (count : Nat)
    (faces : List Nat) (s : σ) (h : r.Counts (faces ++ (dice.draw r.sides count s).1)) :
    r.drawInWords? dice count (r.counted faces) s =
      some (r.counted (faces ++ (dice.draw r.sides count s).1), (dice.draw r.sides count s).2) := by
  induction count generalizing faces s with
  | zero =>
    change some (r.counted faces, s) = some (r.counted (faces ++ []), s)
    rw [List.append_nil]
  | succ count ih =>
    rw [Dice.draw_succ] at h ⊢
    rw [List.append_cons] at h ⊢
    have hnext : r.Counts (faces ++ [(dice.next r.sides s).1]) := by
      refine ⟨?_, fun face hf => h.face_le face (List.mem_append_left _ hf)⟩
      have hl := h.length_le
      rw [List.length_append] at hl
      omega
    rw [drawInWords?]
    dsimp only
    rw [countInWords?_eq hr hnext]
    exact ih _ _ h

theorem adjustInWords?_eq {r : Request} (hr : r.Countable) {total : Nat}
    (h : total ≤ 0x7FFFFFFF * Word.largest32) :
    r.adjustInWords? total = some (r.adjust total) := by
  have ha := hr.amount_le
  unfold adjustInWords? adjust
  cases hm : r.modifier with
  | none => rfl
  | some m =>
    obtain ⟨sign, amount⟩ := m
    have hle : amount ≤ Word.largest32 := ha _ hm
    unfold Word.largest32 at h hle
    cases sign with
    | plus =>
      apply Word.heldSigned64?_eq <;> unfold Word.largestSigned64 <;> omega
    | minus =>
      apply Word.heldSigned64?_eq <;> unfold Word.largestSigned64 <;> omega

theorem counts_draw {r : Request} (hr : r.Countable) {dice : Dice σ} (hd : dice.Honest) (s : σ) :
    r.Counts (dice.draw r.sides r.count s).1 where
  length_le := by
    rw [Dice.length_draw]
    exact hr.count_le
  face_le face hf := (hd.face_range (Nat.lt_of_lt_of_le (by decide) hr.sides_range.1) _ s face hf).2

theorem evaluate_eq (r : Request) (dice : Dice σ) (s : σ) : r.evaluate dice s =
    (r.tally (dice.draw r.sides r.count s).1, (dice.draw r.sides r.count s).2) := rfl

/-- No addition of an evaluation runs over its word. -/
theorem evaluateInWords?_eq {r : Request} (hr : r.Countable) {dice : Dice σ} (hd : dice.Honest)
    (s : σ) : r.evaluateInWords? dice s = some (r.evaluate dice s) := by
  have hcounts := counts_draw hr hd s
  have hzero : (⟨[], 0, .zero⟩ : Outcome) = r.counted [] := by
    cases ht : r.threshold <;> simp only [counted, ht] <;> rfl
  have hdraw := drawInWords?_eq hr dice r.count [] s hcounts
  have hadjust : r.adjustInWords? (r.counted (dice.draw r.sides r.count s).1).total = _ :=
    adjustInWords?_eq hr (hcounts.sum_le hr)
  rw [List.nil_append] at hdraw
  simp only [evaluateInWords?, hzero, hdraw, Option.bind_eq_bind, Option.bind_some, hadjust]
  rw [evaluate_eq, tally_eq]
  rfl

theorem tally_perm (r : Request) {faces faces' : List Nat} (h : faces.Perm faces') :
    (r.tally faces).total = (r.tally faces').total ∧
    (r.tally faces).score = (r.tally faces').score := by
  rw [tally_eq, tally_eq]
  refine ⟨by simp only [h.sum_eq], ?_⟩
  unfold counted
  cases r.threshold with
  | none => rfl
  | some threshold => exact Score.ofFaces_perm h

end Request

/-- An evaluation counts what is drawn, and words are enough for it: the faces in drawing order,
their sum under the modifier, and how many of them hit and miss the threshold. Nothing but the order
of the faces depends on the order in which they are drawn. -/
theorem evaluate_tallies (dice : Dice σ) (hd : dice.Honest) (s : σ) :
    (∀ text r, Command.parse text = .ok (.roll r) → r.Countable) ∧
    ∀ r : Request, r.Countable →
      let o := (r.evaluate dice s).1
      r.evaluateInWords? dice s = some (r.evaluate dice s) ∧
      (r.evaluate dice.recorded (s, [])).2.2 = o.faces.map (Draw.mk r.sides) ∧
      o.faces.length = r.count ∧
      (o.total = match r.modifier with
        | none => (o.faces.sum : Int)
        | some ⟨.plus, amount⟩ => o.faces.sum + amount
        | some ⟨.minus, amount⟩ => o.faces.sum - amount) ∧
      (r.threshold = none → o.score = ⟨0, 0, 0, 0⟩) ∧
      (∀ threshold, r.threshold = some threshold →
        o.score.criticalHits = o.faces.count r.sides ∧
        o.score.criticalMisses = (if 2 ≤ threshold then o.faces.count 1 else 0) ∧
        o.score.hits = o.faces.countP (threshold ≤ ·) + o.score.criticalHits ∧
        o.score.misses = o.faces.countP (· < threshold) + o.score.criticalMisses) ∧
      ∀ {τ : Type} (other : Dice τ) (start : τ),
        (r.evaluate other start).1.faces.Perm o.faces →
        (r.evaluate other start).1.total = o.total ∧
        (r.evaluate other start).1.score = o.score := by
  refine ⟨fun text r h => (Command.limited_of_parse h).countable, fun r hr => ?_⟩
  intro o
  refine ⟨Request.evaluateInWords?_eq hr hd s, ?_, dice.length_draw _ _ s,
    r.tally_total _, ?_, ?_, ?_⟩
  · rw [Request.evaluate_recorded]
    rfl
  · intro ht
    change (r.tally _).score = _
    simp only [Request.tally, ht]
    rfl
  · intro threshold ht
    have hscore : o.score = .ofFaces threshold r.sides o.faces := by
      change (r.tally _).score = _
      simp only [Request.tally, ht]
      rfl
    rw [hscore]
    exact Score.ofFaces_counts_faces (hr.threshold_le threshold ht) o.faces
  · intro τ other start hperm
    exact r.tally_perm hperm

/-- Four dice that show each of their faces once, against a threshold that only the one misses. -/
theorem evaluate_tallies_counting :
    let r : Request := ⟨4, 4, some ⟨.minus, 9⟩, some 2⟩
    counting.Honest ∧ r.Countable ∧
    r.evaluateInWords? counting 0 = some (⟨[1, 2, 3, 4], 1, ⟨4, 1, 2, 1⟩⟩, 4) := by
  intro r
  have hr : r.Countable := {
    sides_range := by decide
    count_le := by decide
    threshold_le := by rintro _ ⟨⟩; decide
    amount_le := by rintro _ ⟨⟩; decide }
  exact ⟨counting_honest, hr, ((evaluate_tallies counting counting_honest 0).2 r hr).1⟩

end Roll
end DiceBot
