import DiceBot.Proofs.Roll.Truth
import Mathlib.Algebra.Order.Floor.Div
import Mathlib.Data.Set.Card
import Mathlib.Order.Interval.Finset.Nat

/-!
Dice driven by uniform words: a die shows one of its faces, by the first word that is accepted and
by no other, each face has as many accepted words as every other, and the message of a roll shows
the faces of the first accepted words.
-/

namespace DiceBot.Roll

variable {sides face : Nat} {word : UInt32} {words : List UInt32}

/-- How many of all words stand for one face of a die. -/
def wordsPerFace (sides : Nat) : Nat := 2 ^ (31 - sides.log2)

theorem acceptedUpTo_succ (hs : 0 < sides) :
    acceptedUpTo sides + 1 = sides * wordsPerFace sides := by
  have hpos : 0 < sides * wordsPerFace sides := Nat.mul_pos hs (Nat.two_pow_pos _)
  rw [acceptedUpTo, Nat.shiftLeft_eq]
  exact Nat.sub_add_cancel hpos

/-- Shifting the number of sides to the front of a word does not shift anything out. -/
theorem mul_wordsPerFace_lt (hs : 0 < sides) (hw : sides < Word.count32) :
    sides * wordsPerFace sides < Word.count32 := by
  have hlog : sides.log2 < 32 := (Nat.log2_lt (Nat.ne_of_gt hs)).mpr hw
  calc sides * 2 ^ (31 - sides.log2)
      < 2 ^ (sides.log2 + 1) * 2 ^ (31 - sides.log2) :=
        Nat.mul_lt_mul_of_pos_right Nat.lt_log2_self (Nat.two_pow_pos _)
    _ = 2 ^ (sides.log2 + 1 + (31 - sides.log2)) := (Nat.pow_add 2 _ _).symm
    _ = 2 ^ 32 := congrArg (2 ^ ·) (by omega)

theorem faceOfWord?_eq_some_iff :
    faceOfWord? sides word = some face ↔
      word.toNat * sides % Word.count32 ≤ acceptedUpTo sides ∧
        1 + word.toNat * sides / Word.count32 = face := by
  simp only [faceOfWord?, Option.ite_none_right_eq_some, Option.some.injEq]

theorem highHalf_lt (hs : 0 < sides) (word : UInt32) :
    word.toNat * sides / Word.count32 < sides := by
  apply Nat.div_lt_of_lt_mul
  exact Nat.mul_lt_mul_of_pos_right word.toNat_lt hs

theorem faceOfWord?_range (hs : 0 < sides) (h : faceOfWord? sides word = some face) :
    1 ≤ face ∧ face ≤ sides := by
  obtain ⟨-, rfl⟩ := faceOfWord?_eq_some_iff.mp h
  have hlt := highHalf_lt hs word
  exact ⟨Nat.le_add_right 1 _, by rwa [Nat.add_comm]⟩

/-- A word stands for a face if its product with the number of sides comes soon enough after the
start of the face. -/
theorem faceOfWord?_iff_between (hs : 0 < sides) (hw : sides < Word.count32) (before : Nat) :
    faceOfWord? sides word = some (1 + before) ↔
      Word.count32 * before ≤ sides * word.toNat ∧
        sides * word.toNat < Word.count32 * before + sides * wordsPerFace sides := by
  have hzone := acceptedUpTo_succ hs
  have hfits := mul_wordsPerFace_lt hs hw
  rw [faceOfWord?_eq_some_iff, Nat.mul_comm word.toNat]
  unfold Word.count32 at *
  omega

/-- The multiples of a number in a stretch that is itself a multiple of it. -/
theorem between_iff_mem_Ico (hs : 0 < sides) (start length m : Nat) :
    start ≤ sides * m ∧ sides * m < start + sides * length ↔
      m ∈ Finset.Ico (start ⌈/⌉ sides) (start ⌈/⌉ sides + length) := by
  have hupper : start + sides * length ≤ sides * m ↔ start ⌈/⌉ sides + length ≤ m := by
    constructor
    · intro h
      have hm : length ≤ m := Nat.le_of_mul_le_mul_left (Nat.le_trans (Nat.le_add_left _ _) h) hs
      have hc : start ⌈/⌉ sides ≤ m - length := by
        rw [ceilDiv_le_iff_le_mul hs, Nat.mul_sub]
        omega
      omega
    · intro h
      have hc : start ≤ sides * (m - length) := by
        rw [← ceilDiv_le_iff_le_mul hs]
        omega
      have hm : sides * length ≤ sides * m := Nat.mul_le_mul_left sides (by omega)
      rw [Nat.mul_sub] at hc
      omega
  rw [Finset.mem_Ico, ceilDiv_le_iff_le_mul hs]
  omega

/-- The stretch of a face ends before the products of all words do. -/
theorem lt_of_between (hs : 0 < sides) (hw : sides < Word.count32) {before m : Nat}
    (hb : before < sides)
    (h : sides * m < Word.count32 * before + sides * wordsPerFace sides) : m < Word.count32 := by
  apply Nat.lt_of_mul_lt_mul_left (a := sides)
  calc sides * m < Word.count32 * before + sides * wordsPerFace sides := h
    _ ≤ Word.count32 * (before + 1) :=
      Nat.add_le_add_left (Nat.le_of_lt (mul_wordsPerFace_lt hs hw)) _
    _ ≤ Word.count32 * sides := Nat.mul_le_mul_left _ hb
    _ = sides * Word.count32 := Nat.mul_comm _ _

/-- The words of a face stand next to each other. -/
theorem image_faceOfWord? (hw : sides < Word.count32) {before : Nat} (hb : before < sides) :
    UInt32.toNat '' {word | faceOfWord? sides word = some (1 + before)} =
      (Finset.Ico (Word.count32 * before ⌈/⌉ sides)
        (Word.count32 * before ⌈/⌉ sides + wordsPerFace sides) : Set Nat) := by
  have hs : 0 < sides := Nat.zero_lt_of_lt hb
  ext m
  rw [Set.mem_image, Finset.mem_coe, ← between_iff_mem_Ico hs]
  constructor
  · rintro ⟨word, h, rfl⟩
    exact (faceOfWord?_iff_between hs hw before).mp h
  · intro h
    have hword : (UInt32.ofNat m).toNat = m :=
      UInt32.toNat_ofNat_of_lt' (lt_of_between hs hw hb h.2)
    refine ⟨UInt32.ofNat m, ?_, hword⟩
    rw [Set.mem_ofPred_eq, faceOfWord?_iff_between hs hw, hword]
    exact h

/-- Each face of a die has the same number of words. -/
theorem ncard_faceOfWord? (hw : sides < Word.count32) (hf : 1 ≤ face ∧ face ≤ sides) :
    {word : UInt32 | faceOfWord? sides word = some face}.ncard = wordsPerFace sides := by
  obtain ⟨before, rfl⟩ := Nat.exists_eq_add_of_le hf.1
  have hinj : Function.Injective UInt32.toNat := fun _ _ => UInt32.toNat_inj.mp
  rw [← Set.ncard_image_of_injective _ hinj, image_faceOfWord? hw (by omega),
    Set.ncard_coe_finset, Nat.card_Ico, Nat.add_sub_cancel_left]

theorem drawFace?_cons_none (h : faceOfWord? (max sides 1) word = none) :
    drawFace? sides (word :: words) = drawFace? sides words := by
  rw [drawFace?, h]

theorem drawFace?_cons_some (h : faceOfWord? (max sides 1) word = some face) :
    drawFace? sides (word :: words) = some (face, words) := by
  rw [drawFace?, h]

/-- Words that are not accepted are passed over. -/
theorem drawFace?_append {skipped : List UInt32}
    (h : ∀ word ∈ skipped, faceOfWord? (max sides 1) word = none) (words : List UInt32) :
    drawFace? sides (skipped ++ words) = drawFace? sides words := by
  induction skipped with
  | nil => rfl
  | cons word skipped ih =>
    rw [List.cons_append, drawFace?_cons_none (h word List.mem_cons_self)]
    exact ih fun w hw => h w (List.mem_cons_of_mem word hw)

/-- The first face that words show, and then the faces that the rest of them show. -/
theorem filterMap_faceOfWord? (sides : Nat) (words : List UInt32) :
    words.filterMap (faceOfWord? (max sides 1)) =
      match drawFace? sides words with
      | some (face, rest) => face :: rest.filterMap (faceOfWord? (max sides 1))
      | none => [] := by
  induction words with
  | nil => rfl
  | cons word words ih =>
    cases hf : faceOfWord? (max sides 1) word with
    | none => rw [drawFace?_cons_none hf, List.filterMap_cons_none hf, ih]
    | some face => rw [drawFace?_cons_some hf, List.filterMap_cons_some hf]

theorem drawFace?_range {rest : List UInt32} (h : drawFace? sides words = some (face, rest)) :
    1 ≤ face ∧ face ≤ max sides 1 := by
  have hmem : face ∈ words.filterMap (faceOfWord? (max sides 1)) := by
    rw [filterMap_faceOfWord?, h]
    exact List.mem_cons_self
  obtain ⟨word, -, hword⟩ := List.mem_filterMap.mp hmem
  exact faceOfWord?_range (Nat.lt_of_lt_of_le Nat.one_pos (Nat.le_max_right _ _)) hword

namespace Dice

theorem ofWords_next {shown : Nat × List UInt32} (h : drawFace? sides words = some shown) :
    ofWords.next sides words = shown :=
  congrArg (Option.getD · (1, [])) h

theorem ofWords_next_none (h : drawFace? sides words = none) :
    ofWords.next sides words = (1, []) :=
  congrArg (Option.getD · (1, [])) h

/-- Dice of words always show one of their faces, even when the words run out. -/
theorem ofWords_honest : ofWords.Honest := by
  intro sides words hs
  cases h : drawFace? sides words with
  | none =>
    rw [ofWords_next_none h]
    exact ⟨Nat.le_refl 1, hs⟩
  | some shown =>
    have hrange := drawFace?_range h
    rw [Nat.max_eq_left hs] at hrange
    rw [ofWords_next h]
    exact hrange

/-- Many dice show the faces of the accepted words in their order. -/
theorem draw_ofWords {count : Nat}
    (h : count ≤ (words.filterMap (faceOfWord? (max sides 1))).length) :
    (ofWords.draw sides count words).1 =
      (words.filterMap (faceOfWord? (max sides 1))).take count := by
  induction count generalizing words with
  | zero => rfl
  | succ count ih =>
    have hfirst := filterMap_faceOfWord? sides words
    cases hd : drawFace? sides words with
    | none =>
      rw [hd] at hfirst
      rw [hfirst] at h
      cases h
    | some shown =>
      obtain ⟨face, rest⟩ := shown
      rw [hd] at hfirst
      rw [hfirst] at h ⊢
      rw [draw_succ, ofWords_next hd, ih (Nat.le_of_succ_le_succ h), List.take_succ_cons]

end Dice

/-- The message of a roll driven by words shows the faces of the first ones that are accepted. -/
theorem reply_ofWords {text : String} {r : Request} (hr : Asks text r) (user : String)
    (about : About) (h : r.count ≤ (words.filterMap (faceOfWord? r.sides)).length) :
    ∃ l : Line, l.Truthful ∧ l.faces = (words.filterMap (faceOfWord? r.sides)).take r.count ∧
      (reply text user about .ofWords words).1 = .rolled (l.text user) := by
  have hlimited := hr.limited
  have hpos : 1 ≤ r.sides := Nat.le_trans (by decide) hlimited.sides_range.1
  rw [← Nat.max_eq_left hpos] at h
  have hdraw : (Dice.ofWords.draw r.sides r.count words).1 = _ := Dice.draw_ofWords h
  rw [Nat.max_eq_left hpos] at hdraw
  have hhonest := Dice.ofWords_honest.face_range hpos r.count words
  have htruth := Line.ofFaces_truthful hlimited (Dice.ofWords.length_draw _ _ words) hhonest
  refine ⟨.ofFaces r (Dice.ofWords.draw r.sides r.count words).1, htruth, hdraw, ?_⟩
  rw [reply_of_asks hr, ← message_tally]
  rfl

section Words

variable {n : UInt32}

/-- How many zeros stand in a word before its first one. -/
def leadingZeros (n : UInt32) : Nat := n.toBitVec.clz.toNat

/-- The largest remainder of an accepted word: the number of sides, shifted to the front of its
word, less one. -/
def zone (n : UInt32) : UInt32 := (n <<< UInt32.ofNat (leadingZeros n)) - 1

/-- The product of a word with the number of sides, in 64 bits. -/
def wideProduct (n word : UInt32) : UInt64 := word.toUInt64 * n.toUInt64

/-- The low half of the product is in the zone. -/
def Accepts (n word : UInt32) : Prop := (wideProduct n word).toUInt32 ≤ zone n

/-- The high half of the product, counted from one. -/
def faceOf (n word : UInt32) : UInt32 := 1 + (wideProduct n word >>> (32 : UInt64)).toUInt32

instance (n word : UInt32) : Decidable (Accepts n word) :=
  inferInstanceAs (Decidable (_ ≤ _))

theorem toNat_wideProduct (n word : UInt32) :
    (wideProduct n word).toNat = word.toNat * n.toNat := by
  have hlt : word.toNat * n.toNat < 2 ^ 32 * 2 ^ 32 :=
    Nat.mul_lt_mul'' word.toNat_lt n.toNat_lt
  rw [wideProduct, UInt64.toNat_mul, UInt32.toNat_toUInt64, UInt32.toNat_toUInt64]
  exact Nat.mod_eq_of_lt hlt

theorem leadingZeros_eq (hn : 0 < n.toNat) : leadingZeros n = 31 - n.toNat.log2 := by
  have hne : n.toBitVec ≠ 0#32 := by
    intro h
    rw [← UInt32.toNat_toBitVec, h] at hn
    cases hn
  have hlt : leadingZeros n < 32 := BitVec.clz_lt_iff_ne_zero.mpr hne
  have hlow : 2 ^ (31 - leadingZeros n) ≤ n.toNat :=
    BitVec.two_pow_sub_clz_le_toNat_of_ne_zero (by decide) hne
  have hhigh : n.toNat < 2 ^ (32 - leadingZeros n) := BitVec.toNat_lt_two_pow_sub_clz
  have hlog : n.toNat.log2 = 31 - leadingZeros n := by
    have hsucc : 31 - leadingZeros n + 1 = 32 - leadingZeros n := by omega
    rw [Nat.log2_eq_iff (Nat.ne_of_gt hn), hsucc]
    exact ⟨hlow, hhigh⟩
  omega

theorem wordsPerFace_toNat (hn : 0 < n.toNat) : wordsPerFace n.toNat = 2 ^ leadingZeros n := by
  rw [wordsPerFace, leadingZeros_eq hn]

theorem toNat_zone (hn : 0 < n.toNat) : (zone n).toNat = acceptedUpTo n.toNat := by
  have hfits := mul_wordsPerFace_lt hn n.toNat_lt
  have hshift : (n <<< UInt32.ofNat (leadingZeros n)).toNat = n.toNat * wordsPerFace n.toNat := by
    have hlz : leadingZeros n < 32 := by
      rw [leadingZeros_eq hn]
      omega
    rw [UInt32.toNat_shiftLeft, UInt32.toNat_ofNat_of_lt' (Nat.lt_trans hlz (by decide)),
      Nat.mod_eq_of_lt hlz, Nat.shiftLeft_eq, ← wordsPerFace_toNat hn]
    exact Nat.mod_eq_of_lt hfits
  have hzone := acceptedUpTo_succ hn
  have hone : (1 : UInt32) ≤ n <<< UInt32.ofNat (leadingZeros n) := by
    rw [UInt32.le_iff_toNat_le, hshift, ← hzone]
    exact Nat.le_add_left 1 _
  rw [zone, UInt32.toNat_sub_of_le _ _ hone, hshift, ← hzone]
  rfl

theorem toNat_faceOf (hn : 0 < n.toNat) (word : UInt32) :
    (faceOf n word).toNat = 1 + word.toNat * n.toNat / Word.count32 := by
  have hhalf : (wideProduct n word >>> 32).toNat = word.toNat * n.toNat / Word.count32 := by
    rw [UInt64.toNat_shiftRight, toNat_wideProduct]
    exact Nat.shiftRight_eq_div_pow _ 32
  have hlt := highHalf_lt hn word
  have hfits : n.toNat < 2 ^ 32 := n.toNat_lt
  have hone : (1 : UInt32).toNat = 1 := rfl
  rw [faceOf, UInt32.toNat_add, UInt64.toNat_toUInt32, hhalf, hone]
  omega

theorem accepts_iff (hn : 0 < n.toNat) (word : UInt32) :
    Accepts n word ↔ word.toNat * n.toNat % Word.count32 ≤ acceptedUpTo n.toNat := by
  rw [Accepts, UInt32.le_iff_toNat_le, UInt64.toNat_toUInt32, toNat_wideProduct, toNat_zone hn]
  rfl

/-- The choice of a face needs no more than words of 32 bits and a product of 64. -/
theorem faceOfWord?_toNat (hn : 0 < n.toNat) (word : UInt32) :
    faceOfWord? n.toNat word = if Accepts n word then some (faceOf n word).toNat else none := by
  simp only [faceOfWord?, accepts_iff hn, toNat_faceOf hn]

theorem faceOfWord?_toNat_eq_some_iff (hn : 0 < n.toNat) {word face : UInt32} :
    faceOfWord? n.toNat word = some face.toNat ↔ Accepts n word ∧ faceOf n word = face := by
  rw [faceOfWord?_toNat hn, Option.ite_none_right_eq_some, Option.some.injEq, UInt32.toNat_inj]

theorem exists_first_accepted (h : ∃ word ∈ words, Accepts n word) :
    ∃ skipped word rest, words = skipped ++ word :: rest ∧
      (∀ w ∈ skipped, ¬ Accepts n w) ∧ Accepts n word := by
  induction words with
  | nil =>
    obtain ⟨word, hword, -⟩ := h
    cases hword
  | cons word words ih =>
    by_cases hw : Accepts n word
    · exact ⟨[], word, words, rfl, by simp, hw⟩
    · have hrest : ∃ word ∈ words, Accepts n word := by simpa [hw] using h
      obtain ⟨skipped, first, rest, rfl, hskipped, hfirst⟩ := ih hrest
      refine ⟨word :: skipped, first, rest, rfl, ?_, hfirst⟩
      rw [List.forall_mem_cons]
      exact ⟨hw, hskipped⟩

/-- Only the first accepted word counts, and what stands behind it is left. -/
theorem drawFace?_first {skipped rest : List UInt32} (hn : n.toNat = max sides 1)
    (hskipped : ∀ w ∈ skipped, ¬ Accepts n w) (hw : Accepts n word) :
    drawFace? sides (skipped ++ word :: rest) = some ((faceOf n word).toNat, rest) := by
  have hpos : 0 < n.toNat := by omega
  rw [drawFace?_append, drawFace?_cons_some]
  · rw [← hn, faceOfWord?_toNat hpos, if_pos hw]
  · intro w hmem
    rw [← hn, faceOfWord?_toNat hpos, if_neg (hskipped w hmem)]

end Words

/-- A die shows a face between one and its number of sides, which is that of the first accepted
word, and takes the words up to this one. Of all words, two to the power of the leading zeros of the
number of sides are accepted for each face. -/
theorem fair_faces (sides n : UInt32) (hn : n = max sides 1) :
    (∀ words : List UInt32, (∃ word ∈ words, Accepts n word) →
      ∃ skipped word rest, words = skipped ++ word :: rest ∧
        (∀ w ∈ skipped, ¬ Accepts n w) ∧ Accepts n word ∧
        1 ≤ faceOf n word ∧ faceOf n word ≤ n ∧
        Dice.ofWords.next sides.toNat words = ((faceOf n word).toNat, rest)) ∧
    ∀ face, 1 ≤ face → face ≤ n →
      {word | Accepts n word ∧ faceOf n word = face}.ncard = 2 ^ leadingZeros n := by
  have hmax : n.toNat = max sides.toNat 1 := hn ▸ UInt32.toNat_max sides 1
  have hpos : 0 < n.toNat := by omega
  simp only [UInt32.le_iff_toNat_le]
  refine ⟨?_, ?_⟩
  · intro words hex
    obtain ⟨skipped, word, rest, rfl, hskipped, hw⟩ := exists_first_accepted hex
    have hdraw : drawFace? sides.toNat (skipped ++ word :: rest) =
        some ((faceOf n word).toNat, rest) := drawFace?_first hmax hskipped hw
    have hrange := drawFace?_range hdraw
    rw [← hmax] at hrange
    exact ⟨skipped, word, rest, rfl, hskipped, hw, hrange.1, hrange.2, Dice.ofWords_next hdraw⟩
  · intro face hlow hhigh
    simp only [← faceOfWord?_toNat_eq_some_iff hpos]
    rw [ncard_faceOfWord? n.toNat_lt ⟨hlow, hhigh⟩, wordsPerFace_toNat hpos]

/-- A die of six sides that passes over one word, and the words of its third face. -/
theorem fair_faces_six :
    let words : List UInt32 := [0xFFFFFFFF, 0x55555556, 7]
    (∃ word ∈ words, Accepts 6 word) ∧ Dice.ofWords.next 6 words = (3, [7]) ∧
      {word | Accepts 6 word ∧ faceOf 6 word = 3}.ncard = 2 ^ 29 := by
  have hrefused : ¬ Accepts 6 0xFFFFFFFF := by decide
  have haccepted : Accepts 6 0x55555556 := by decide
  have hex : ∃ word ∈ [0xFFFFFFFF, 0x55555556, 7], Accepts 6 word :=
    ⟨0x55555556, by simp, haccepted⟩
  obtain ⟨hfirst, hcount⟩ := fair_faces 6 6 rfl
  obtain ⟨skipped, word, rest, hwords, hskipped, haccepts, -, -, hnext⟩ := hfirst _ hex
  refine ⟨hex, ?_, hcount 3 (by decide) (by decide)⟩
  match skipped with
  | [] =>
    cases hwords
    exact absurd haccepts hrefused
  | [_] =>
    cases hwords
    exact hnext
  | _ :: second :: _ =>
    have hsecond : 0x55555556 = second := (List.cons.inj (List.cons.inj hwords).2).1
    rw [hsecond] at haccepted
    exact absurd haccepted (hskipped second (by simp))

end DiceBot.Roll
