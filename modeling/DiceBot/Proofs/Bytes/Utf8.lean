import DiceBot.Bytes.Utf8

/-!
Text in UTF-8: the bytes of a text are those of its characters, and give the text back, whether they
are read strictly or with marks.
-/

namespace DiceBot.Bytes

theorem utf8_eq_flatMap (s : String) : utf8 s = s.toList.flatMap String.utf8EncodeChar := by
  unfold utf8
  rw [String.toUTF8_eq_toByteArray, ← String.utf8Encode_toList]
  exact List.toList_data_toByteArray

theorem utf8_append (a b : String) : utf8 (a ++ b) = utf8 a ++ utf8 b := by
  simp only [utf8_eq_flatMap, String.toList_append, List.flatMap_append]

theorem ofUtf8?_utf8 (s : String) : ofUtf8? (utf8 s) = some s := by
  have hs : s.toUTF8.IsValidUTF8 := s.isValidUTF8
  have he : ByteArray.mk (utf8 s).toArray = s.toUTF8 := by simp [utf8]
  unfold ofUtf8?
  rw [he, String.fromUTF8?, dif_pos hs]
  rfl

/-- Bytes that encode a text are the bytes of that text. -/
theorem utf8_of_ofUtf8? {bytes : List UInt8} {s : String} (h : ofUtf8? bytes = some s) :
    utf8 s = bytes := by
  unfold ofUtf8? String.fromUTF8? at h
  split at h
  · cases h
    rfl
  · cases h

theorem utf8EncodeChar_ascii {c : Char} (h : c.toNat < 128) :
    String.utf8EncodeChar c = [UInt8.ofNat c.toNat] := by
  have hc : c.val.toNat ≤ 0x7f := Nat.le_of_lt_succ h
  simp only [String.utf8EncodeChar, if_pos hc]
  rfl

/-- A character of ASCII is its own byte, and the bytes of another one lie between those and the ones
that are in no text. -/
theorem mem_utf8EncodeChar {c : Char} {b : UInt8} (hb : b ∈ String.utf8EncodeChar c) :
    (c.toNat < 128 ∧ b.toNat = c.toNat) ∨ 128 ≤ c.toNat ∧ 128 ≤ b.toNat ∧ b.toNat < 0xf8 := by
  by_cases h : c.toNat < 128
  · rw [utf8EncodeChar_ascii h, List.mem_singleton] at hb
    subst hb
    exact .inl ⟨h, by simp only [UInt8.toNat_ofNat']; omega⟩
  · refine .inr ⟨Nat.not_lt.mp h, ?_⟩
    have hc : ¬ c.val.toNat ≤ 0x7f := fun hle => h (Nat.lt_succ_of_le hle)
    unfold String.utf8EncodeChar at hb
    simp only [if_neg hc] at hb
    split at hb
    · simp only [List.mem_cons, List.not_mem_nil, or_false] at hb
      rcases hb with rfl | rfl <;> simp only [UInt8.toNat_ofNat'] <;> omega
    · split at hb
      · simp only [List.mem_cons, List.not_mem_nil, or_false] at hb
        rcases hb with rfl | rfl | rfl <;> simp only [UInt8.toNat_ofNat'] <;> omega
      · simp only [List.mem_cons, List.not_mem_nil, or_false] at hb
        rcases hb with rfl | rfl | rfl | rfl <;> simp only [UInt8.toNat_ofNat'] <;> omega

/-- No byte of a character beyond ASCII is a character of ASCII. -/
theorem le_of_mem_utf8EncodeChar {c : Char} (h : 128 ≤ c.toNat) {b : UInt8}
    (hb : b ∈ String.utf8EncodeChar c) : 128 ≤ b.toNat := by
  rcases mem_utf8EncodeChar hb with ⟨hc, -⟩ | ⟨-, hb, -⟩ <;> omega

/-- No byte of a character has its five highest bits set. -/
theorem lt_of_mem_utf8EncodeChar {c : Char} {b : UInt8} (hb : b ∈ String.utf8EncodeChar c) :
    b.toNat < 0xf8 := by
  rcases mem_utf8EncodeChar hb with ⟨hc, hb⟩ | ⟨-, -, hb⟩ <;> omega

theorem ofUtf8?_eq_none {bytes : List UInt8} {b : UInt8} (hb : b ∈ bytes) (h : 0xf8 ≤ b.toNat) :
    ofUtf8? bytes = none := by
  cases hs : ofUtf8? bytes with
  | none => rfl
  | some s =>
    rw [← utf8_of_ofUtf8? hs, utf8_eq_flatMap] at hb
    obtain ⟨c, -, hc⟩ := List.mem_flatMap.mp hb
    exact absurd (lt_of_mem_utf8EncodeChar hc) (Nat.not_lt.mpr h)

theorem continues_ofNat {low high : UInt8} {n : Nat} (h : low.toNat ≤ n) (h' : n ≤ high.toNat) :
    continues low high (UInt8.ofNat n) = true := by
  have hn : n < 256 := Nat.lt_of_le_of_lt h' high.toNat_lt
  simp only [continues, UInt8.le_iff_toNat_le, UInt8.toNat_ofNat', Nat.mod_eq_of_lt hn, h, h',
    decide_true, Bool.and_self]

/-- Six bits of a number make a byte that continues a character. -/
theorem continues_bits (n : Nat) : continues 0x80 0xBF (UInt8.ofNat (n % 64 + 128)) = true :=
  continues_ofNat (by simp) (by simp; omega)

theorem takeChar_one {n : Nat} (h : n < 0x80) (rest : List UInt8) :
    takeChar (UInt8.ofNat n :: rest) = (some (Char.ofNat n), rest) := by
  simp only [takeChar, UInt8.lt_iff_toNat_lt, UInt8.toNat_ofNat']
  rw [if_pos (by simp; omega), Nat.mod_eq_of_lt (by omega)]

theorem takeChar_two {n : Nat} (h : 0x80 ≤ n) (h' : n < 0x800) (rest : List UInt8) :
    takeChar (UInt8.ofNat (n / 64 % 32 + 192) :: UInt8.ofNat (n % 64 + 128) :: rest) =
      (some (Char.ofNat n), rest) := by
  simp only [takeChar, UInt8.lt_iff_toNat_lt, UInt8.le_iff_toNat_le, UInt8.toNat_ofNat',
    Bool.and_eq_true, decide_eq_true_eq]
  rw [if_neg (by simp; omega), if_pos (by simp; omega), if_pos (continues_bits n)]
  have hn : (n / 64 % 32 + 192) % 2 ^ 8 % 32 * 64 + (n % 64 + 128) % 2 ^ 8 % 64 = n := by omega
  rw [hn]

/-- The first bytes of three with the lowest and with the surrogates behind them are read apart. -/
theorem takeChar_three {n : Nat} (h : 0x800 ≤ n) (h' : n < 0x10000)
    (hs : n < 0xD800 ∨ 0xDFFF < n) (rest : List UInt8) :
    takeChar (UInt8.ofNat (n / 4096 % 16 + 224) :: UInt8.ofNat (n / 64 % 64 + 128) ::
      UInt8.ofNat (n % 64 + 128) :: rest) = (some (Char.ofNat n), rest) := by
  simp only [takeChar, UInt8.lt_iff_toNat_lt, UInt8.le_iff_toNat_le, UInt8.toNat_ofNat',
    Bool.and_eq_true, decide_eq_true_eq, beq_iff_eq, ← UInt8.toNat_inj]
  rw [if_neg (by simp; omega), if_neg (by simp; omega)]
  have hbits (top : Nat) (ht : top = n / 4096) :
      (top * 64 + (n / 64 % 64 + 128) % 2 ^ 8 % 64) * 64 + (n % 64 + 128) % 2 ^ 8 % 64 = n := by
    omega
  by_cases hlow : n / 4096 = 0
  · rw [if_pos (by simp; omega), if_pos (continues_ofNat (by simp; omega) (by simp; omega)),
      if_pos (continues_bits n), hbits 0 hlow.symm]
  · rw [if_neg (by simp; omega)]
    by_cases hsurrogate : n / 4096 = 13
    · rw [if_pos (by simp; omega), if_pos (continues_ofNat (by simp) (by simp; omega)),
        if_pos (continues_bits n), hbits 13 hsurrogate.symm]
    · rw [if_neg (by simp; omega), if_pos (by simp; omega), if_pos (continues_bits (n / 64)),
        if_pos (continues_bits n), hbits _ (by omega)]

/-- Of four bytes, the first one with the lowest and the highest characters is read apart. -/
theorem takeChar_four {n : Nat} (h : 0x10000 ≤ n) (h' : n < 0x110000) (rest : List UInt8) :
    takeChar (UInt8.ofNat (n / 262144 % 8 + 240) :: UInt8.ofNat (n / 4096 % 64 + 128) ::
      UInt8.ofNat (n / 64 % 64 + 128) :: UInt8.ofNat (n % 64 + 128) :: rest) =
      (some (Char.ofNat n), rest) := by
  simp only [takeChar, UInt8.lt_iff_toNat_lt, UInt8.le_iff_toNat_le, UInt8.toNat_ofNat',
    Bool.and_eq_true, decide_eq_true_eq, beq_iff_eq, ← UInt8.toNat_inj]
  rw [if_neg (by simp; omega), if_neg (by simp; omega), if_neg (by simp; omega),
    if_neg (by simp; omega), if_neg (by simp; omega)]
  have hbits (top : Nat) (ht : top = n / 262144) :
      ((top * 64 + (n / 4096 % 64 + 128) % 2 ^ 8 % 64) * 64 +
        (n / 64 % 64 + 128) % 2 ^ 8 % 64) * 64 + (n % 64 + 128) % 2 ^ 8 % 64 = n := by
    omega
  by_cases hlow : n / 262144 = 0
  · rw [if_pos (by simp; omega), if_pos (continues_ofNat (by simp; omega) (by simp; omega)),
      if_pos (continues_bits (n / 64)), if_pos (continues_bits n), hbits 0 hlow.symm]
  · rw [if_neg (by simp; omega)]
    by_cases hhigh : n / 262144 = 4
    · rw [if_neg (by simp; omega), if_pos (by simp; omega),
        if_pos (continues_ofNat (by simp) (by simp; omega)), if_pos (continues_bits (n / 64)),
        if_pos (continues_bits n), hbits 4 hhigh.symm]
    · rw [if_pos (by simp; omega), if_pos (continues_bits (n / 4096)),
        if_pos (continues_bits (n / 64)), if_pos (continues_bits n), hbits _ (by omega)]

/-- A character is taken back from the bytes that it is written with. -/
theorem takeChar_utf8EncodeChar (c : Char) (rest : List UInt8) :
    takeChar (String.utf8EncodeChar c ++ rest) = (some c, rest) := by
  have hvalid : c.toNat < 0xD800 ∨ (0xDFFF < c.toNat ∧ c.toNat < 0x110000) := c.valid
  suffices h : takeChar (String.utf8EncodeChar c ++ rest) = (some (Char.ofNat c.toNat), rest) by
    rw [h, Char.ofNat_toNat]
  have hval : c.val.toNat = c.toNat := rfl
  unfold String.utf8EncodeChar
  rw [hval]
  generalize c.toNat = n at hvalid
  dsimp only
  split
  · exact takeChar_one (by omega) rest
  · split
    · exact takeChar_two (by omega) (by omega) rest
    · split
      · exact takeChar_three (by omega) (by omega) (by omega) rest
      · exact takeChar_four (by omega) (by omega) rest

/-- Text is read back from its bytes, with as much fuel as there are bytes. -/
theorem markedChars_utf8 (cs : List Char) {fuel : Nat}
    (h : (cs.flatMap String.utf8EncodeChar).length ≤ fuel) :
    markedChars fuel (cs.flatMap String.utf8EncodeChar) = cs := by
  induction cs generalizing fuel with
  | nil => cases fuel <;> rfl
  | cons c cs ih =>
    rw [List.flatMap_cons, List.length_append] at h
    have hpos : 0 < (String.utf8EncodeChar c).length := by
      rw [String.length_utf8EncodeChar]
      exact c.utf8Size_pos
    cases fuel with
    | zero => omega
    | succ fuel =>
      rw [List.flatMap_cons, markedChars, takeChar_utf8EncodeChar]
      · exact congrArg (c :: ·) (ih (by omega))
      · intro he
        have hlength := congrArg List.length he
        rw [List.length_append, List.length_nil] at hlength
        omega

theorem ofUtf8Marked_utf8 (s : String) : ofUtf8Marked (utf8 s) = s := by
  unfold ofUtf8Marked
  rw [utf8_eq_flatMap, markedChars_utf8 _ (Nat.le_refl _), String.ofList_toList]

end DiceBot.Bytes
