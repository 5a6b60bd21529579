import DiceBot.Proofs.Text.Numeral
import DiceBot.Proofs.Text.Split
import DiceBot.Roll.Message

/-!
Messages can be read: no two rolls have the same one, whatever the users are called. The last `o` of
a message is that of the word `rolled`, so what stands before it is the user's name, and each number
after it ends where its digits end.
-/

namespace DiceBot.Roll

open Text (EndsRun endsRun_append endsRun_cons not_mem_toString toString_append_inj)

/-- Of a text that it begins with no note on critical ones. -/
def EndsNote (s : List Char) : Prop := ∀ rest, s ≠ ' ' :: '(' :: rest

theorem criticalNote_append_inj {n m : Nat} {x y : List Char} (hx : EndsNote x) (hy : EndsNote y)
    (h : (criticalNote n).toList ++ x = (criticalNote m).toList ++ y) : n = m ∧ x = y := by
  unfold criticalNote at h
  split at h <;> split at h <;>
    simp only [String.toList_append, String.reduceToList, List.append_assoc, List.cons_append,
      List.nil_append, List.cons.injEq, true_and] at h
  case isTrue.isTrue hn hm => exact ⟨hn.trans hm.symm, h⟩
  case isTrue.isFalse => exact absurd h (hx _)
  case isFalse.isTrue => exact absurd h.symm (hy _)
  case isFalse.isFalse =>
    obtain ⟨hnm, h⟩ := toString_append_inj (endsRun_cons rfl) (endsRun_cons rfl) h
    simp only [List.cons.injEq, true_and] at h
    exact ⟨hnm, h⟩

/-- A number with a word in the singular or the plural after it. -/
theorem counted_append_inj {one many : String} (hone : one.toList.head? = some ' ')
    (hmany : many.toList.head? = some ' ') {n m : Nat} {x y : List Char}
    (h : (toString n).toList ++ ((if n = 1 then one else many).toList ++ x) =
      (toString m).toList ++ ((if m = 1 then one else many).toList ++ y)) :
    n = m ∧ x = y := by
  have hends (k : Nat) (z : List Char) : EndsRun ((if k = 1 then one else many).toList ++ z) := by
    split
    · exact endsRun_append hone rfl z
    · exact endsRun_append hmany rfl z
  obtain ⟨rfl, h⟩ := toString_append_inj (hends n x) (hends m y) h
  exact ⟨rfl, List.append_cancel_left h⟩

/-- The score is read off its note. -/
theorem Score.note_injective {s s' : Score} (h : s.note.toList = s'.note.toList) : s = s' := by
  have hand (rest : List Char) : EndsNote (" and ".toList ++ rest) := by
    intro note he
    simp at he
  have hend : EndsNote [] := by
    rintro _ ⟨⟩
  simp only [Score.note, String.toList_append, List.append_assoc] at h
  obtain ⟨hhits, h⟩ := counted_append_inj rfl rfl (List.append_cancel_left h)
  obtain ⟨hcritical, h⟩ := criticalNote_append_inj (hand _) (hand _) h
  obtain ⟨hmisses, h⟩ := counted_append_inj rfl rfl (List.append_cancel_left h)
  rw [← List.append_nil (criticalNote s.criticalMisses).toList,
    ← List.append_nil (criticalNote s'.criticalMisses).toList] at h
  obtain ⟨hcriticalMisses, -⟩ := criticalNote_append_inj hend hend h
  cases s
  cases s'
  cases hhits
  cases hcritical
  cases hmisses
  cases hcriticalMisses
  rfl

theorem Modifier.note_append_inj {m m' : Modifier} {x y : List Char} (hx : EndsRun x)
    (hy : EndsRun y) (h : m.note.toList ++ x = m'.note.toList ++ y) : m = m' ∧ x = y := by
  obtain ⟨sign, amount⟩ := m
  obtain ⟨sign', amount'⟩ := m'
  cases sign <;> cases sign' <;>
    simp only [Modifier.note, Sign.symbol, String.toList_append, String.reduceToList,
      List.cons_append, List.nil_append, List.cons.injEq, true_and] at h
  case plus.plus =>
    obtain ⟨ha, hxy⟩ := toString_append_inj hx hy h
    exact ⟨congrArg _ ha, hxy⟩
  case minus.minus =>
    obtain ⟨ha, hxy⟩ := toString_append_inj hx hy h
    exact ⟨congrArg _ ha, hxy⟩
  all_goals cases h.1

/-- The note on a score, if there is one. -/
def scoreNote (s : Option Score) : String := (s.map Score.note).getD ""

theorem Score.note_toList (s : Score) : ∃ rest, s.note.toList = ' ' :: ' ' :: 'w' :: rest := by
  simp only [Score.note, String.toList_append, String.reduceToList, List.append_assoc,
    List.cons_append]
  exact ⟨_, rfl⟩

theorem scoreNote_injective {s s' : Option Score}
    (h : (scoreNote s).toList = (scoreNote s').toList) : s = s' := by
  cases s with
  | none =>
    cases s' with
    | none => rfl
    | some score' =>
      obtain ⟨rest, hs⟩ := score'.note_toList
      cases h.trans hs
  | some score =>
    cases s' with
    | none =>
      obtain ⟨rest, hs⟩ := score.note_toList
      cases hs.symm.trans h
    | some score' => rw [Score.note_injective h]

theorem endsRun_scoreNote (s : Option Score) : EndsRun (scoreNote s).toList := by
  cases s with
  | none =>
    rintro _ ⟨⟩
  | some score =>
    obtain ⟨rest, hs⟩ := score.note_toList
    rw [show (scoreNote (some score)).toList = _ from hs]
    exact endsRun_cons rfl

/-- A modifier cannot be taken for a score. -/
theorem Modifier.note_ne_scoreNote (m : Modifier) (x : List Char) (s : Option Score) :
    m.note.toList ++ x ≠ (scoreNote s).toList := by
  intro h
  obtain ⟨sign, amount⟩ := m
  cases s with
  | none => cases sign <;> simp [Modifier.note, scoreNote] at h
  | some score =>
    obtain ⟨rest, hs⟩ := score.note_toList
    have h := h.trans hs
    cases sign <;> simp [Modifier.note, Sign.symbol] at h

/-- What follows the faces, the modifier and the score, is read off its text. -/
theorem notes_injective {m m' : Option Modifier} {s s' : Option Score}
    (h : ((m.map Modifier.note).getD "").toList ++ (scoreNote s).toList =
      ((m'.map Modifier.note).getD "").toList ++ (scoreNote s').toList) : m = m' ∧ s = s' := by
  cases m with
  | none =>
    cases m' with
    | none => exact ⟨rfl, scoreNote_injective h⟩
    | some modifier' => exact absurd h.symm (modifier'.note_ne_scoreNote _ s)
  | some modifier =>
    cases m' with
    | none => exact absurd h (modifier.note_ne_scoreNote _ s')
    | some modifier' =>
      obtain ⟨rfl, hs⟩ :=
        Modifier.note_append_inj (endsRun_scoreNote s) (endsRun_scoreNote s') h
      exact ⟨rfl, scoreNote_injective hs⟩

/-- The faces after the first, each behind its separator. -/
def moreFaces (faces : List Nat) : List Char :=
  faces.flatMap fun face => ',' :: ' ' :: ' ' :: (toString face).toList

theorem moreFaces_cons (face : Nat) (faces : List Nat) : moreFaces (face :: faces) =
    ',' :: ' ' :: ' ' :: ((toString face).toList ++ moreFaces faces) := rfl

theorem faces_toList (face : Nat) (faces : List Nat) :
    (",  ".intercalate ((face :: faces).map toString)).toList =
      (toString face).toList ++ moreFaces faces := by
  have hmore (faces : List Nat) : ∀ face, ",  ".toList.intercalate
      (((face :: faces).map toString).map String.toList) =
        (toString face).toList ++ moreFaces faces := by
    induction faces with
    | nil => simp [moreFaces]
    | cons next faces ih =>
      intro face
      rw [List.map_cons, List.map_cons, List.map_cons, List.map_cons, List.intercalate_cons_cons]
      rw [moreFaces_cons, ← ih next]
      simp only [String.reduceToList, List.map_cons, List.append_assoc, List.cons_append,
        List.nil_append]
  rw [String.toList_intercalate, hmore]

theorem endsRun_moreFaces (faces : List Nat) (x : List Char) :
    EndsRun (moreFaces faces ++ ' ' :: x) := by
  cases faces <;> exact endsRun_cons rfl

theorem moreFaces_append_inj {faces faces' : List Nat} {x y : List Char}
    (h : moreFaces faces ++ ' ' :: x = moreFaces faces' ++ ' ' :: y) :
    faces = faces' ∧ x = y := by
  induction faces generalizing faces' with
  | nil =>
    cases faces' with
    | nil =>
      cases h
      exact ⟨rfl, rfl⟩
    | cons face' faces' => cases h
  | cons face faces ih =>
    cases faces' with
    | nil => cases h
    | cons face' faces' =>
      simp only [moreFaces_cons, List.cons_append, List.append_assoc, List.cons.injEq,
        true_and] at h
      obtain ⟨rfl, hmore⟩ :=
        toString_append_inj (endsRun_moreFaces _ _) (endsRun_moreFaces _ _) h
      obtain ⟨rfl, hxy⟩ := ih hmore
      exact ⟨rfl, hxy⟩

theorem faces_append_inj {faces faces' : List Nat} {x y : List Char}
    (h : (",  ".intercalate (faces.map toString)).toList ++ ' ' :: x =
      (",  ".intercalate (faces'.map toString)).toList ++ ' ' :: y) : faces = faces' ∧ x = y := by
  cases faces with
  | nil =>
    cases faces' with
    | nil =>
      exact ⟨rfl, (List.cons.inj h).2⟩
    | cons face' faces' =>
      rw [faces_toList, List.append_assoc] at h
      exact absurd h.symm (Text.toString_append_ne_cons rfl _ _ _)
  | cons face faces =>
    cases faces' with
    | nil =>
      rw [faces_toList, List.append_assoc] at h
      exact absurd h (Text.toString_append_ne_cons rfl _ _ _)
    | cons face' faces' =>
      rw [faces_toList, faces_toList, List.append_assoc, List.append_assoc] at h
      obtain ⟨rfl, hmore⟩ :=
        toString_append_inj (endsRun_moreFaces _ _) (endsRun_moreFaces _ _) h
      obtain ⟨rfl, hxy⟩ := moreFaces_append_inj hmore
      exact ⟨rfl, hxy⟩

/-- What a message says after the user's name, from the last `o` of its own on. -/
def told (r : Request) (o : Outcome) : String :=
  "lled " ++ toString r.count ++ " " ++ toString r.sides ++ "-sided " ++
  (if r.count = 1 then "die" else "dice") ++ ":_  *" ++ toString o.total ++ "*  ( " ++
  ",  ".intercalate (o.faces.map toString) ++ " )" ++
  (r.modifier.map Modifier.note).getD "" ++ scoreNote (r.threshold.map fun _ => o.score)

theorem message_toList (r : Request) (user : String) (o : Outcome) :
    (message r user o).toList = ('_' :: user.toList ++ [' ', 'r']) ++ 'o' :: (told r o).toList := by
  have hs : (if r.threshold.isSome then o.score.note else "") =
      scoreNote (r.threshold.map fun _ => o.score) := by
    cases r.threshold <;> rfl
  unfold message told
  rw [hs]
  simp only [String.toList_append, String.reduceToList, List.append_assoc, List.cons_append,
    List.nil_append]

theorem told_injective {r r' : Request} {o o' : Outcome}
    (h : (told r o).toList = (told r' o').toList) :
    r.count = r'.count ∧ r.sides = r'.sides ∧ o.total = o'.total ∧ o.faces = o'.faces ∧
    r.modifier = r'.modifier ∧
    (r.threshold.map fun _ => o.score) = r'.threshold.map fun _ => o'.score := by
  unfold told at h
  simp only [String.toList_append, List.append_assoc] at h
  obtain ⟨hcount, h⟩ := toString_append_inj (endsRun_append rfl rfl _) (endsRun_append rfl rfl _)
    (List.append_cancel_left h)
  obtain ⟨hsides, h⟩ := toString_append_inj (endsRun_append rfl rfl _) (endsRun_append rfl rfl _)
    (List.append_cancel_left h)
  rw [hcount] at h
  replace h := List.append_cancel_left (List.append_cancel_left (List.append_cancel_left h))
  obtain ⟨htotal, h⟩ := Text.toString_int_append_inj (endsRun_append rfl rfl _)
    (endsRun_append rfl rfl _) h
  replace h := List.append_cancel_left h
  have hclose : " )".toList = [' ', ')'] := rfl
  rw [hclose] at h
  obtain ⟨hfaces, h⟩ := faces_append_inj h
  obtain ⟨hmodifier, hscore⟩ := notes_injective (List.cons.inj h).2
  exact ⟨hcount, hsides, htotal, hfaces, hmodifier, hscore⟩

theorem o_not_mem_criticalNote (n : Nat) : 'o' ∉ (criticalNote n).toList := by
  have hn := not_mem_toString (c := 'o') rfl n
  unfold criticalNote
  split
  · simp
  · simp only [String.toList_append, List.mem_append, hn, or_false]
    simp

theorem Score.o_not_mem_note (s : Score) : 'o' ∉ s.note.toList := by
  have hn := not_mem_toString (c := 'o') rfl
  have hhits : 'o' ∉ (if s.hits = 1 then " hit" else " hits").toList := by
    split <;> simp
  have hmisses : 'o' ∉ (if s.misses = 1 then " miss" else " misses").toList := by
    split <;> simp
  simp only [Score.note, String.toList_append, List.mem_append, hn, hhits, hmisses,
    o_not_mem_criticalNote, or_false]
  simp

theorem Modifier.o_not_mem_note (m : Modifier) : 'o' ∉ m.note.toList := by
  have hn := not_mem_toString (c := 'o') rfl m.amount
  have hs : 'o' ∉ m.sign.symbol.toList := by
    cases m.sign <;> simp [Sign.symbol]
  simp only [Modifier.note, String.toList_append, List.mem_append, hn, hs, or_false]
  simp

/-- The words and numbers after the user's name are written without an `o`. -/
theorem o_not_mem_told (r : Request) (o : Outcome) : 'o' ∉ (told r o).toList := by
  have hn := not_mem_toString (c := 'o') rfl
  have hword : 'o' ∉ (if r.count = 1 then "die" else "dice").toList := by
    split <;> simp
  have htotal : 'o' ∉ (toString o.total).toList :=
    Text.not_mem_toString_int rfl (by decide) o.total
  have hfaces : 'o' ∉ (",  ".intercalate (o.faces.map toString)).toList := by
    rw [String.toList_intercalate]
    intro hm
    rcases Text.mem_intercalate hm with hm | ⟨piece, hp, hm⟩
    · simp at hm
    · rw [List.map_map] at hp
      obtain ⟨face, -, rfl⟩ := List.mem_map.mp hp
      exact hn face hm
  have hmodifier : 'o' ∉ ((r.modifier.map Modifier.note).getD "").toList := by
    cases r.modifier with
    | none => simp
    | some m => exact m.o_not_mem_note
  have hscore : 'o' ∉ (scoreNote (r.threshold.map fun _ => o.score)).toList := by
    cases r.threshold with
    | none => simp [scoreNote]
    | some t => exact o.score.o_not_mem_note
  unfold told
  simp only [String.toList_append, List.mem_append, hn, hword, htotal, hfaces, hmodifier, hscore,
    or_false]
  simp

/-- A message determines the user and all that it says about the roll, so that no user's name,
however it is chosen, makes the message of one roll that of another. -/
theorem message_injective {r r' : Request} {user user' : String} {o o' : Outcome}
    (h : message r user o = message r' user' o') :
    user = user' ∧ r.count = r'.count ∧ r.sides = r'.sides ∧ o.total = o'.total ∧
    o.faces = o'.faces ∧ r.modifier = r'.modifier ∧
    r.threshold.isSome = r'.threshold.isSome ∧
    (r.threshold.isSome = true → o.score = o'.score) := by
  have hl := congrArg String.toList h
  rw [message_toList, message_toList] at hl
  obtain ⟨huser, htold⟩ :=
    Text.append_cons_inj_of_last (o_not_mem_told r o) (o_not_mem_told r' o') hl
  obtain ⟨hcount, hsides, htotal, hfaces, hmodifier, hscore⟩ := told_injective htold
  have hname := String.toList_inj.mp (List.append_cancel_right (List.cons.inj huser).2)
  refine ⟨hname, hcount, hsides, htotal, hfaces, hmodifier, ?_, ?_⟩
  · have hsome := congrArg Option.isSome hscore
    rwa [Option.isSome_map, Option.isSome_map] at hsome
  · intro hasked
    obtain ⟨threshold, ht⟩ := Option.isSome_iff_exists.mp hasked
    rw [ht, Option.map_some] at hscore
    obtain ⟨threshold', -, hs⟩ := Option.map_eq_some_iff.mp hscore.symm
    exact hs.symm

/-- A user who is called like the message of another roll, in two rolls of which only the thresholds
differ: these are not told. -/
theorem message_injective_crafted :
    let user := "al rolled 1 6-sided die:_  *6*  ( 6 )  with 2 hits (1 critical) and 0 misses"
    let r : Request := ⟨2, 6, some ⟨.minus, 2⟩, some 5⟩
    let r' : Request := ⟨2, 6, some ⟨.minus, 2⟩, some 6⟩
    let o : Outcome := ⟨[6, 1], 5, ⟨2, 1, 2, 1⟩⟩
    message r user o = message r' user o ∧
    user = user ∧ r.count = r'.count ∧ r.sides = r'.sides ∧ o.total = o.total ∧
    o.faces = o.faces ∧ r.modifier = r'.modifier ∧
    r.threshold.isSome = r'.threshold.isSome ∧ (r.threshold.isSome = true → o.score = o.score) := by
  intro user r r' o
  have h : message r user o = message r' user o := rfl
  exact ⟨h, message_injective h⟩

end DiceBot.Roll
