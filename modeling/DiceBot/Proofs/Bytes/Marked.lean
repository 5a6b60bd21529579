import DiceBot.Proofs.Bytes.Utf8

/-!
Bytes that are read with marks are read in parts: a part ends where a byte comes that does not
continue a character, and text in them is read as it is, whatever stands around it.
-/

namespace DiceBot.Bytes

/-- The bytes do not start with one that continues a character. -/
def StartsAnew (bytes : List UInt8) : Prop := ∀ b ∈ bytes.head?, b.toNat < 0x80 ∨ 0xC0 ≤ b.toNat

theorem startsAnew_utf8 (s : String) : StartsAnew (utf8 s) := by
  rw [utf8_eq_flatMap]
  intro b hb
  cases hs : s.toList with
  | nil =>
    rw [hs] at hb
    cases hb
  | cons c cs =>
    have hc : c.val.toNat < 0x110000 := by
      have hvalid : c.val.toNat < 0xD800 ∨ (0xDFFF < c.val.toNat ∧ c.val.toNat < 0x110000) :=
        c.valid
      omega
    rw [hs, List.flatMap_cons] at hb
    unfold String.utf8EncodeChar at hb
    dsimp only at hb
    -- characters of one, two and three bytes, and then of four
    iterate 3
      split at hb
      · cases hb
        simp only [UInt8.toNat_ofNat']
        omega
    cases hb
    simp only [UInt8.toNat_ofNat']
    omega

/-- Reads the next byte of a character if it continues it, and then what follows with it. -/
def takeNext (following : List UInt8 → Nat → Option Char × List UInt8) (low high : UInt8)
    (bytes : List UInt8) (top : Nat) : Option Char × List UInt8 :=
  match bytes with
  | b :: rest =>
    if continues low high b then following rest (top * 64 + b.toNat % 64) else (none, bytes)
  | [] => (none, bytes)

def takeTwo : UInt8 → UInt8 → List UInt8 → Nat → Option Char × List UInt8 :=
  takeNext fun rest n => (some (Char.ofNat n), rest)

def takeThree : UInt8 → UInt8 → List UInt8 → Nat → Option Char × List UInt8 :=
  takeNext (takeTwo 0x80 0xBF)

def takeFour : UInt8 → UInt8 → List UInt8 → Nat → Option Char × List UInt8 :=
  takeNext (takeThree 0x80 0xBF)

theorem takeChar_cons (a : UInt8) (rest : List UInt8) : takeChar (a :: rest) =
    if a < 0x80 then (some (Char.ofNat a.toNat), rest)
    else if 0xC2 ≤ a && a ≤ 0xDF then takeTwo 0x80 0xBF rest (a.toNat % 32)
    else if a == 0xE0 then takeThree 0xA0 0xBF rest 0
    else if a == 0xED then takeThree 0x80 0x9F rest 13
    else if 0xE1 ≤ a && a ≤ 0xEF then takeThree 0x80 0xBF rest (a.toNat % 16)
    else if a == 0xF0 then takeFour 0x90 0xBF rest 0
    else if 0xF1 ≤ a && a ≤ 0xF3 then takeFour 0x80 0xBF rest (a.toNat % 8)
    else if a == 0xF4 then takeFour 0x80 0x8F rest 4
    else (none, rest) :=
  rfl

/-- A reader of characters takes bytes from the start, and is not disturbed by those behind. -/
structure Takes (take : List UInt8 → Nat → Option Char × List UInt8) : Prop where
  length_le : ∀ bytes top, (take bytes top).2.length ≤ bytes.length
  append : ∀ {y}, StartsAnew y → ∀ bytes top,
    take (bytes ++ y) top = ((take bytes top).1, (take bytes top).2 ++ y)

theorem Takes.next {take : List UInt8 → Nat → Option Char × List UInt8} (h : Takes take)
    {low high : UInt8} (hlow : 0x80 ≤ low.toNat) (hhigh : high.toNat < 0xC0) :
    Takes (takeNext take low high) where
  length_le bytes top := by
    cases bytes with
    | nil => exact Nat.le_refl 0
    | cons b rest =>
      simp only [takeNext]
      split
      · exact Nat.le_succ_of_le (h.length_le rest _)
      · exact Nat.le_refl _
  append {y} hy bytes top := by
    cases bytes with
    | nil =>
      cases y with
      | nil => rfl
      | cons b y =>
        have hb := hy b rfl
        have hc : continues low high b = false := by
          simp only [continues, Bool.and_eq_false_iff, decide_eq_false_iff_not,
            UInt8.le_iff_toNat_le]
          omega
        simp [takeNext, hc]
    | cons b rest => cases hc : continues low high b <;> simp [takeNext, hc, h.append hy]

theorem takes_takeTwo {low high : UInt8} (hlow : 0x80 ≤ low.toNat) (hhigh : high.toNat < 0xC0) :
    Takes (takeTwo low high) :=
  Takes.next ⟨fun _ _ => Nat.le_refl _, fun _ _ _ => rfl⟩ hlow hhigh

theorem takes_takeThree {low high : UInt8} (hlow : 0x80 ≤ low.toNat) (hhigh : high.toNat < 0xC0) :
    Takes (takeThree low high) :=
  (takes_takeTwo (by decide) (by decide)).next hlow hhigh

theorem takes_takeFour {low high : UInt8} (hlow : 0x80 ≤ low.toNat) (hhigh : high.toNat < 0xC0) :
    Takes (takeFour low high) :=
  (takes_takeThree (by decide) (by decide)).next hlow hhigh

/-- The first byte chooses a reader for the others. -/
theorem exists_takes (a : UInt8) :
    ∃ take top, Takes take ∧ ∀ rest, takeChar (a :: rest) = take rest top := by
  simp only [takeChar_cons]
  split
  · exact ⟨fun rest n => (some (Char.ofNat n), rest), a.toNat,
      ⟨fun _ _ => Nat.le_refl _, fun _ _ _ => rfl⟩, fun _ => rfl⟩
  split
  · exact ⟨_, _, takes_takeTwo (by decide) (by decide), fun _ => rfl⟩
  iterate 3
    split
    · exact ⟨_, _, takes_takeThree (by decide) (by decide), fun _ => rfl⟩
  iterate 3
    split
    · exact ⟨_, _, takes_takeFour (by decide) (by decide), fun _ => rfl⟩
  exact ⟨fun rest _ => (none, rest), 0, ⟨fun _ _ => Nat.le_refl _, fun _ _ _ => rfl⟩, fun _ => rfl⟩

theorem length_takeChar_le (a : UInt8) (rest : List UInt8) :
    (takeChar (a :: rest)).2.length ≤ rest.length := by
  obtain ⟨take, top, htake, he⟩ := exists_takes a
  rw [he]
  exact htake.length_le rest top

theorem takeChar_append {y : List UInt8} (hy : StartsAnew y) (a : UInt8) (rest : List UInt8) :
    takeChar (a :: (rest ++ y)) = ((takeChar (a :: rest)).1, (takeChar (a :: rest)).2 ++ y) := by
  obtain ⟨take, top, htake, he⟩ := exists_takes a
  rw [he, he, htake.append hy]

/-- More fuel than there are bytes changes nothing. -/
theorem markedChars_eq {bytes : List UInt8} {fuel fuel' : Nat} (h : bytes.length ≤ fuel)
    (h' : bytes.length ≤ fuel') : markedChars fuel bytes = markedChars fuel' bytes := by
  induction fuel generalizing bytes fuel' with
  | zero =>
    rw [List.length_eq_zero_iff.mp (Nat.le_zero.mp h)]
    cases fuel' <;> rfl
  | succ fuel ih =>
    cases bytes with
    | nil => cases fuel' <;> rfl
    | cons a rest =>
      have hlength := length_takeChar_le a rest
      rw [List.length_cons] at h h'
      cases fuel' with
      | zero => omega
      | succ fuel' =>
        have hrest : markedChars fuel (takeChar (a :: rest)).2 =
            markedChars fuel' (takeChar (a :: rest)).2 := ih (by omega) (by omega)
        exact congrArg (_ :: ·) hrest

theorem toList_ofUtf8Marked_cons (a : UInt8) (rest : List UInt8) :
    (ofUtf8Marked (a :: rest)).toList = (takeChar (a :: rest)).1.getD '\uFFFD' ::
      (ofUtf8Marked (takeChar (a :: rest)).2).toList := by
  rw [ofUtf8Marked, ofUtf8Marked, String.toList_ofList, String.toList_ofList]
  exact congrArg (_ :: ·) (markedChars_eq (length_takeChar_le a rest) (Nat.le_refl _))

/-- Bytes are read in parts. -/
theorem ofUtf8Marked_append {x y : List UInt8} (hy : StartsAnew y) :
    ofUtf8Marked (x ++ y) = ofUtf8Marked x ++ ofUtf8Marked y := by
  apply String.toList_injective
  rw [String.toList_append]
  induction hn : x.length using Nat.strongRecOn generalizing x with
  | _ n ih =>
    cases x with
    | nil => rfl
    | cons a rest =>
      have hlength := length_takeChar_le a rest
      rw [List.cons_append, toList_ofUtf8Marked_cons, toList_ofUtf8Marked_cons,
        takeChar_append hy, ih _ (by simp at hn; omega) rfl]
      rfl

theorem ofUtf8Marked_append_utf8 (x : List UInt8) (s : String) :
    ofUtf8Marked (x ++ utf8 s) = ofUtf8Marked x ++ s := by
  rw [ofUtf8Marked_append (startsAnew_utf8 s), ofUtf8Marked_utf8]

theorem toList_ofUtf8Marked_char (c : Char) (rest : List UInt8) :
    (ofUtf8Marked (String.utf8EncodeChar c ++ rest)).toList = c :: (ofUtf8Marked rest).toList := by
  have htake := takeChar_utf8EncodeChar c rest
  have hpos := c.utf8Size_pos
  cases hbytes : String.utf8EncodeChar c ++ rest with
  | nil =>
    have hlength := congrArg List.length hbytes
    rw [List.length_append, String.length_utf8EncodeChar, List.length_nil] at hlength
    omega
  | cons a bytes =>
    rw [toList_ofUtf8Marked_cons, ← hbytes, htake]
    rfl

/-- Text is read as it is, also when the bytes behind it would continue a character. -/
theorem ofUtf8Marked_utf8_append (s : String) (x : List UInt8) :
    ofUtf8Marked (utf8 s ++ x) = s ++ ofUtf8Marked x := by
  apply String.toList_injective
  rw [utf8_eq_flatMap, String.toList_append]
  induction s.toList with
  | nil => rfl
  | cons c cs ih =>
    rw [List.flatMap_cons, List.append_assoc, toList_ofUtf8Marked_char, ih]
    rfl

/-- Bytes between two texts are text when the whole is. -/
theorem ofUtf8?_between (a b : String) (x : List UInt8) :
    ofUtf8? (utf8 a ++ x ++ utf8 b) = (ofUtf8? x).map fun s => a ++ s ++ b := by
  cases hx : ofUtf8? x with
  | some s =>
    rw [← utf8_of_ofUtf8? hx, ← utf8_append, ← utf8_append, ofUtf8?_utf8]
    rfl
  | none =>
    cases ht : ofUtf8? (utf8 a ++ x ++ utf8 b) with
    | none => rfl
    | some t =>
      have hbytes := utf8_of_ofUtf8? ht
      have hmarked : t = a ++ ofUtf8Marked x ++ b := by
        rw [← ofUtf8Marked_utf8 t, hbytes, ofUtf8Marked_append_utf8, ofUtf8Marked_utf8_append]
      rw [hmarked, utf8_append, utf8_append, List.append_left_inj, List.append_right_inj] at hbytes
      rw [← hbytes, ofUtf8?_utf8] at hx
      cases hx

end DiceBot.Bytes
