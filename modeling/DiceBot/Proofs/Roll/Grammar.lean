import DiceBot.Proofs.Text.Run
import DiceBot.Roll.Notation

/-!
The grammar of dice notation, apart from the reader: how a text splits into count, sides, modifier,
hit group and what is ignored. The reader accepts exactly the texts that split, and a text splits
in one way at most.
-/

namespace DiceBot.Roll

open Text (IsRun EndsRun takeWhile_run dropWhile_run isRun_takeWhile endsRun_dropWhile endsRun_cons)

def Sign.char : Sign → Char
  | .plus => '+'
  | .minus => '-'

/-- A text as it is split. The hit group has one space more than the number with it says. -/
structure Split where
  count : List Char
  sides : List Char
  modifier : Option (Sign × List Char)
  hit : Option (Nat × List Char)
  rest : List Char

namespace Split

def modifierText : Option (Sign × List Char) → List Char
  | none => []
  | some (sign, digits) => sign.char :: digits

def hitText : Option (Nat × List Char) → List Char
  | none => []
  | some (spaces, digits) => ' ' :: (List.replicate spaces ' ' ++ 'h' :: 'i' :: 't' :: digits)

/-- A modifier has digits, all that there are. There is none only where no sign with a digit
follows. -/
def ModifierWhole : Option (Sign × List Char) → (after : List Char) → Prop
  | some (_, digits), after => IsRun digits ∧ digits ≠ [] ∧ EndsRun after
  | none, after => ∀ (sign : Sign) (digits rest : List Char),
      IsRun digits → digits ≠ [] → after ≠ sign.char :: (digits ++ rest)

/-- A hit group has all digits that there are. There is none only where the word does not follow
after spaces. -/
def HitWhole : Option (Nat × List Char) → (after : List Char) → Prop
  | some (_, digits), after => IsRun digits ∧ EndsRun after
  | none, after => ∀ (spaces : Nat) (rest : List Char), after ≠ hitText (some (spaces, rest))

/-- The parts give the text, and each of them is as long as it can be. -/
structure Of (p : Split) (s : List Char) : Prop where
  text : s = p.count ++ 'd' :: (p.sides ++ (modifierText p.modifier ++ (hitText p.hit ++ p.rest)))
  count_run : IsRun p.count
  sides_run : IsRun p.sides
  sides_ne : p.sides ≠ []
  sides_end : EndsRun (modifierText p.modifier ++ (hitText p.hit ++ p.rest))
  modifier_whole : ModifierWhole p.modifier (hitText p.hit ++ p.rest)
  hit_whole : HitWhole p.hit p.rest

/-- What a text asks for that splits so. A number beyond its limits counts as the nearer limit, the
count is one and the threshold five where their digits are not written. -/
def request (p : Split) : Request where
  count := if p.count = [] then 1 else max 1 (min 100 (Text.numeral p.count))
  sides := max 2 (min 100 (Text.numeral p.sides))
  modifier := p.modifier.map fun (sign, digits) => ⟨sign, min (Text.numeral digits) 100⟩
  threshold := p.hit.map fun (_, digits) =>
    if digits = [] then 5 else min (Text.numeral digits) 100

/-- The parts that the reader keeps. -/
def clause (p : Split) : Clause := ⟨p.count, p.sides, p.modifier, p.hit.map Prod.snd⟩

end Split

@[simp] theorem Sign.char_isDigit (sign : Sign) : sign.char.isDigit = false := by
  cases sign <;> rfl

namespace Clause

theorem takeModifier_signed (sign : Sign) (s : List Char) :
    takeModifier (sign.char :: s) =
      if s.takeWhile Char.isDigit = [] then (none, sign.char :: s)
      else (some (sign, s.takeWhile Char.isDigit), s.dropWhile Char.isDigit) := by
  cases sign <;> rfl

theorem takeModifier_unsigned {s : List Char} (h : ∀ (sign : Sign) rest, s ≠ sign.char :: rest) :
    takeModifier s = (none, s) := by
  unfold takeModifier
  split
  · exact absurd rfl (h .plus _)
  · exact absurd rfl (h .minus _)
  · rfl

/-- Taking a modifier is the inverse of putting one in front of a text that does not extend it. -/
theorem takeModifier_eq_iff {s rest : List Char} {m : Option (Sign × List Char)} :
    takeModifier s = (m, rest) ↔ s = Split.modifierText m ++ rest ∧ Split.ModifierWhole m rest := by
  constructor
  · intro h
    by_cases hs : ∃ (sign : Sign) (after : List Char), s = sign.char :: after
    · obtain ⟨sign, after, rfl⟩ := hs
      rw [takeModifier_signed] at h
      split at h
      · next hnil =>
        cases h
        refine ⟨rfl, ?_⟩
        intro sign' digits tail hd hne he
        obtain ⟨-, rfl⟩ := List.cons.inj he
        rw [List.takeWhile_append_of_pos hd, List.append_eq_nil_iff] at hnil
        exact hne hnil.1
      · next hne =>
        cases h
        refine ⟨?_, isRun_takeWhile after, hne, endsRun_dropWhile after⟩
        simp [Split.modifierText]
    · have hn : ∀ (sign : Sign) rest, s ≠ sign.char :: rest :=
        fun sign after he => hs ⟨sign, after, he⟩
      rw [takeModifier_unsigned hn] at h
      cases h
      exact ⟨rfl, fun sign digits tail _ _ => hn sign _⟩
  · rintro ⟨rfl, hw⟩
    cases m with
    | some m =>
      obtain ⟨sign, digits⟩ := m
      obtain ⟨hd, hne, he⟩ := hw
      simp [Split.modifierText, takeModifier_signed, takeWhile_run hd he, dropWhile_run hd he, hne]
    | none =>
      by_cases hs : ∃ (sign : Sign) (after : List Char), rest = sign.char :: after
      · obtain ⟨sign, after, rfl⟩ := hs
        have hnil : after.takeWhile Char.isDigit = [] := by
          by_contra hne
          apply hw sign _ (after.dropWhile Char.isDigit) (isRun_takeWhile after) hne
          rw [List.takeWhile_append_dropWhile]
        simp [Split.modifierText, takeModifier_signed, hnil]
      · exact takeModifier_unsigned fun sign after he => hs ⟨sign, after, he⟩

theorem takeHit_worded (spaces : Nat) (s : List Char) :
    takeHit (Split.hitText (some (spaces, s))) =
      (some (s.takeWhile Char.isDigit), s.dropWhile Char.isDigit) := by
  have hs : (List.replicate spaces ' ' ++ 'h' :: 'i' :: 't' :: s).dropWhile (· = ' ') =
      'h' :: 'i' :: 't' :: s := by
    rw [List.dropWhile_append_of_pos (by simp)]
    rfl
  simp only [takeHit, Split.hitText, hs]

theorem takeHit_unworded {s : List Char} (h : ∀ spaces rest, s ≠ Split.hitText (some (spaces, rest))) :
    takeHit s = (none, s) := by
  unfold takeHit
  split
  · next after =>
    split
    · next rest hw =>
      exfalso
      apply h (after.takeWhile (· = ' ')).length rest
      have hr : List.replicate (after.takeWhile (· = ' ')).length ' ' =
          after.takeWhile (· = ' ') := by
        symm
        apply List.eq_replicate_of_mem
        intro c hc
        simpa using List.mem_takeWhile_imp hc
      rw [Split.hitText, hr, ← hw, List.takeWhile_append_dropWhile]
    · rfl
  · rfl

/-- Taking a hit group forgets how many spaces it has. -/
theorem takeHit_eq_iff {s rest : List Char} {digits : Option (List Char)} :
    takeHit s = (digits, rest) ↔ ∃ group : Option (Nat × List Char),
      group.map Prod.snd = digits ∧ s = Split.hitText group ++ rest ∧ Split.HitWhole group rest := by
  constructor
  · intro h
    by_cases hs : ∃ spaces after, s = Split.hitText (some (spaces, after))
    · obtain ⟨spaces, after, rfl⟩ := hs
      rw [takeHit_worded] at h
      cases h
      refine ⟨some (spaces, after.takeWhile Char.isDigit), rfl, ?_, isRun_takeWhile after,
        endsRun_dropWhile after⟩
      simp [Split.hitText]
    · have hn : ∀ spaces rest, s ≠ Split.hitText (some (spaces, rest)) :=
        fun spaces after he => hs ⟨spaces, after, he⟩
      rw [takeHit_unworded hn] at h
      cases h
      exact ⟨none, rfl, rfl, hn⟩
  · rintro ⟨group, rfl, rfl, hw⟩
    cases group with
    | some group =>
      obtain ⟨spaces, digits⟩ := group
      obtain ⟨hd, he⟩ := hw
      have ht : Split.hitText (some (spaces, digits)) ++ rest =
          Split.hitText (some (spaces, digits ++ rest)) := by
        simp [Split.hitText]
      rw [ht, takeHit_worded, takeWhile_run hd he, dropWhile_run hd he]
      rfl
    | none => exact takeHit_unworded hw

/-- The reader finds a clause exactly where the text splits into the parts of the clause. -/
theorem take?_eq_some_iff {s rest : List Char} {c : Clause} :
    take? s = some (c, rest) ↔ ∃ p : Split, p.Of s ∧ p.clause = c ∧ p.rest = rest := by
  constructor
  · intro h
    unfold take? at h
    split at h
    · next after hd =>
      dsimp only at h
      split at h
      · cases h
      · next hne =>
        cases hm : takeModifier (after.dropWhile Char.isDigit) with
        | mk modifier beyond =>
        cases hh : takeHit beyond with
        | mk digits beyond' =>
        rw [hm] at h
        dsimp only at h
        rw [hh] at h
        cases h
        obtain ⟨hm, hmw⟩ := takeModifier_eq_iff.mp hm
        obtain ⟨group, hg, rfl, hhw⟩ := takeHit_eq_iff.mp hh
        refine ⟨⟨s.takeWhile Char.isDigit, after.takeWhile Char.isDigit, modifier, group, beyond'⟩,
          ⟨?_, isRun_takeWhile s, isRun_takeWhile after, hne, ?_, hmw, hhw⟩, ?_, rfl⟩
        · dsimp only
          rw [← hm, List.takeWhile_append_dropWhile, ← hd, List.takeWhile_append_dropWhile]
        · dsimp only
          rw [← hm]
          exact endsRun_dropWhile after
        · rw [Split.clause, hg]
    · cases h
  · rintro ⟨p, hp, rfl, rfl⟩
    have hd : EndsRun ('d' :: (p.sides ++ (Split.modifierText p.modifier ++
        (Split.hitText p.hit ++ p.rest)))) := endsRun_cons rfl
    have hm := takeModifier_eq_iff.mpr ⟨rfl, hp.modifier_whole⟩
    have hh := takeHit_eq_iff.mpr ⟨p.hit, rfl, rfl, hp.hit_whole⟩
    unfold take?
    rw [hp.text, dropWhile_run hp.count_run hd, takeWhile_run hp.count_run hd]
    simp only [takeWhile_run hp.sides_run hp.sides_end, if_neg hp.sides_ne,
      dropWhile_run hp.sides_run hp.sides_end, hm, hh, Split.clause]

end Clause

theorem Split.hitText_length (spaces : Nat) (digits : List Char) :
    (hitText (some (spaces, digits))).length = spaces + 4 + digits.length := by
  simp [hitText]
  omega

/-- A text splits in one way at most: what the reader keeps determines all parts but the number of
spaces, and the length of the text determines that. -/
theorem Split.Of.unique {p q : Split} {s : List Char} (hp : p.Of s) (hq : q.Of s) : p = q := by
  have h := (Clause.take?_eq_some_iff.mpr ⟨p, hp, rfl, rfl⟩).symm.trans
    (Clause.take?_eq_some_iff.mpr ⟨q, hq, rfl, rfl⟩)
  have hlen := congrArg List.length (hp.text.symm.trans hq.text)
  obtain ⟨count, sides, modifier, hit, rest⟩ := p
  obtain ⟨count', sides', modifier', hit', rest'⟩ := q
  simp only [Split.clause, Option.some.injEq, Prod.mk.injEq, Clause.mk.injEq] at h
  obtain ⟨⟨rfl, rfl, rfl, hhit⟩, rfl⟩ := h
  have : hit = hit' := by
    cases hit with
    | none => cases hit' with
      | none => rfl
      | some g => cases hhit
    | some g => cases hit' with
      | none => cases hhit
      | some g' =>
        obtain ⟨spaces, digits⟩ := g
        obtain ⟨spaces', digits'⟩ := g'
        obtain rfl : digits = digits' := by simpa using hhit
        simp only [List.length_append, List.length_cons, Split.hitText_length] at hlen
        have : spaces = spaces' := by omega
        rw [this]
  rw [this]

theorem clamp_saturatingNumeral (low : Nat) (digits : List Char) :
    Clause.clamp low 100 (Text.saturatingNumeral digits) =
      max low (min 100 (Text.numeral digits)) := by
  rw [Text.saturatingNumeral_eq]
  simp only [Clause.clamp, Word.largest32]
  omega

theorem min_saturatingNumeral (digits : List Char) :
    min (Text.saturatingNumeral digits) 100 = min (Text.numeral digits) 100 := by
  rw [Text.saturatingNumeral_eq]
  simp only [Word.largest32]
  omega

/-- Saturation loses nothing, since every limit is far below the largest word. -/
theorem Split.clause_request (p : Split) : p.clause.request = p.request := by
  simp only [Clause.request, clause, request, Clause.mostDice, Clause.fewestSides,
    Clause.mostSides, Clause.largestAmount, Clause.largestThreshold, Clause.usualThreshold,
    clamp_saturatingNumeral, min_saturatingNumeral, Option.map_map, Function.comp_def]

theorem Request.checked_of_le {r : Request} (h : ∀ t, r.threshold = some t → t ≤ r.sides) :
    r.checked = .ok r := by
  unfold Request.checked
  split
  · rfl
  · next t ht => exact if_neg (Nat.not_lt.mpr (h t ht))

theorem Request.checked_of_lt {r : Request} {t : Nat} (ht : r.threshold = some t)
    (h : r.sides < t) : r.checked = .error (.unreachable t r.sides) := by
  simp only [Request.checked, ht]
  exact if_pos h

namespace Command

/-- What is left of a text once the blanks around it and the case of its letters do not count. -/
def folded (text : String) : List Char := (Text.trim text.toList).map Char.toLower

theorem parse_eq (text : String) : parse text =
    if folded text = "help".toList then .ok .help
    else if folded text = "version".toList then .ok .version
    else match Clause.take? (folded text) with
      | none => .error (.unrecognized (Text.strip text))
      | some (clause, _) => clause.request.checked.map .roll := rfl

theorem parse_help {text : String} (h : folded text = "help".toList) :
    parse text = .ok .help := by
  rw [parse_eq, if_pos h]

theorem parse_version {text : String} (h : folded text = "version".toList) :
    parse text = .ok .version := by
  have hne : folded text ≠ "help".toList := by
    rw [h]
    decide
  rw [parse_eq, if_neg hne, if_pos h]

/-- Neither keyword begins like dice. -/
theorem not_keyword_of_split {text : String} {p : Split} (hp : p.Of (folded text)) :
    folded text ≠ "help".toList ∧ folded text ≠ "version".toList := by
  have h := Clause.take?_eq_some_iff.mpr ⟨p, hp, rfl, rfl⟩
  constructor <;> intro he <;> rw [he] at h <;> cases h

theorem parse_of_split {text : String} {p : Split} (hp : p.Of (folded text)) :
    parse text = p.clause.request.checked.map .roll := by
  obtain ⟨hh, hv⟩ := not_keyword_of_split hp
  have ht := Clause.take?_eq_some_iff.mpr ⟨p, hp, rfl, rfl⟩
  rw [parse_eq, if_neg hh, if_neg hv, ht]

/-- A text that splits is a roll, unless no face of its dice reaches the threshold. -/
theorem parse_split {text : String} {p : Split} (hp : p.Of (folded text)) :
    (∀ t, p.request.threshold = some t → p.request.sides < t →
      parse text = .error (.unreachable t p.request.sides)) ∧
    ((∀ t, p.request.threshold = some t → t ≤ p.request.sides) →
      parse text = .ok (.roll p.request)) := by
  rw [parse_of_split hp, p.clause_request]
  constructor
  · intro t ht hlt
    rw [Request.checked_of_lt ht hlt]
    rfl
  · intro hle
    rw [Request.checked_of_le hle]
    rfl

theorem parse_unsplit {text : String} (hh : folded text ≠ "help".toList)
    (hv : folded text ≠ "version".toList) (hn : ¬ ∃ p : Split, p.Of (folded text)) :
    parse text = .error (.unrecognized (Text.strip text)) := by
  have ht : Clause.take? (folded text) = none := by
    cases ht : Clause.take? (folded text) with
    | none => rfl
    | some found =>
      obtain ⟨p, hp, -, -⟩ := Clause.take?_eq_some_iff.mp ht
      exact absurd ⟨p, hp⟩ hn
  rw [parse_eq, if_neg hh, if_neg hv, ht]

/-- The four ways in which a text is answered. -/
theorem parse_cases (text : String) :
    (folded text = "help".toList ∧ parse text = .ok .help) ∨
    (folded text = "version".toList ∧ parse text = .ok .version) ∨
    (∃ p : Split, p.Of (folded text) ∧ (parse text = .ok (.roll p.request) ∨
      ∃ t, parse text = .error (.unreachable t p.request.sides))) ∨
    ((¬ ∃ p : Split, p.Of (folded text)) ∧
      parse text = .error (.unrecognized (Text.strip text))) := by
  by_cases hh : folded text = "help".toList
  · exact .inl ⟨hh, parse_help hh⟩
  by_cases hv : folded text = "version".toList
  · exact .inr (.inl ⟨hv, parse_version hv⟩)
  by_cases hs : ∃ p : Split, p.Of (folded text)
  · obtain ⟨p, hp⟩ := hs
    refine .inr (.inr (.inl ⟨p, hp, ?_⟩))
    cases ht : p.request.threshold with
    | none => exact .inl ((parse_split hp).2 (by simp [ht]))
    | some t =>
      by_cases hle : t ≤ p.request.sides
      · refine .inl ((parse_split hp).2 ?_)
        rw [ht]
        rintro _ ⟨⟩
        exact hle
      · exact .inr ⟨t, (parse_split hp).1 t ht (Nat.lt_of_not_le hle)⟩
  · exact .inr (.inr (.inr ⟨hs, parse_unsplit hh hv hs⟩))

/-- The keywords and the split of the text decide what the reader answers, and nothing that follows
the split does. -/
theorem parse_grammar (text : String) :
    (parse text = .ok .help ↔ folded text = "help".toList) ∧
    (parse text = .ok .version ↔ folded text = "version".toList) ∧
    (((∃ r, parse text = .ok (.roll r)) ∨ ∃ t sides, parse text = .error (.unreachable t sides)) ↔
      ∃ p : Split, p.Of (folded text)) ∧
    (∀ p q : Split, p.Of (folded text) → q.Of (folded text) → p = q) ∧
    (∀ p : Split, p.Of (folded text) →
      (∀ t, p.request.threshold = some t → p.request.sides < t →
        parse text = .error (.unreachable t p.request.sides)) ∧
      ((∀ t, p.request.threshold = some t → t ≤ p.request.sides) →
        parse text = .ok (.roll p.request))) ∧
    (∀ (other : String) (p q : Split), p.Of (folded text) → q.Of (folded other) →
      p.clause = q.clause → parse text = parse other) ∧
    (folded text ≠ "help".toList → folded text ≠ "version".toList →
      (¬ ∃ p : Split, p.Of (folded text)) →
      parse text = .error (.unrecognized (Text.strip text))) := by
  refine ⟨⟨?_, parse_help⟩, ⟨?_, parse_version⟩, ⟨?_, ?_⟩, fun p q hp hq => hp.unique hq,
    fun p hp => parse_split hp, ?_, parse_unsplit⟩
  · intro h
    rcases parse_cases text with ⟨hf, -⟩ | ⟨-, h'⟩ | ⟨p, -, h' | ⟨t, h'⟩⟩ | ⟨-, h'⟩
    · exact hf
    all_goals rw [h] at h'; cases h'
  · intro h
    rcases parse_cases text with ⟨-, h'⟩ | ⟨hf, -⟩ | ⟨p, -, h' | ⟨t, h'⟩⟩ | ⟨-, h'⟩
    rotate_left
    · exact hf
    all_goals rw [h] at h'; cases h'
  · intro h
    rcases parse_cases text with ⟨-, h'⟩ | ⟨-, h'⟩ | ⟨p, hp, -⟩ | ⟨-, h'⟩
    rotate_left 2
    · exact ⟨p, hp⟩
    all_goals
      rw [h'] at h
      rcases h with ⟨r, h⟩ | ⟨t, sides, h⟩ <;> cases h
  · rintro ⟨p, hp⟩
    rcases parse_cases text with ⟨hf, -⟩ | ⟨hf, -⟩ | ⟨q, -, h | ⟨t, h⟩⟩ | ⟨hn, -⟩
    · exact absurd hf (not_keyword_of_split hp).1
    · exact absurd hf (not_keyword_of_split hp).2
    · exact .inl ⟨q.request, h⟩
    · exact .inr ⟨t, q.request.sides, h⟩
    · exact absurd ⟨p, hp⟩ hn
  · intro other p q hp hq hpq
    rw [parse_of_split hp, parse_of_split hq, hpq]

example : parse " 3D8- hit" = .ok (.roll ⟨3, 8, none, none⟩) := by decide +kernel

end Command
end DiceBot.Roll
