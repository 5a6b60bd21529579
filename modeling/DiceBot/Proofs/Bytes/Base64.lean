import DiceBot.Bytes.Base64
import DiceBot.Proofs.Text.Ascii

/-!
What base64 encodes it decodes, and it decodes nothing else.
-/

namespace DiceBot.Bytes.Base64

theorem value?_char {n : Nat} (h : n < 64) : value? (char n) = some n := by
  have hall : ∀ n < 64, value? (char n) = some n := by decide
  exact hall n h

theorem char_ne_pad {n : Nat} (h : n < 64) : char n ≠ '=' := by
  intro he
  have hv := value?_char h
  rw [he] at hv
  cases hv

theorem eq_ofNat {b : UInt8} {n : Nat} (h : n = b.toNat) : UInt8.ofNat n = b := by
  rw [h, UInt8.ofNat_toNat]

/-- The numbers of one byte give it back, and the last one has no other bits. -/
theorem one?_bits (a : UInt8) : one? (a.toNat / 4) (a.toNat % 4 * 16) = some [a] := by
  have ha : a.toNat / 4 * 4 + a.toNat % 4 * 16 / 16 = a.toNat := by omega
  rw [one?, if_pos (by omega), eq_ofNat ha]

theorem two?_bits (a b : UInt8) :
    two? (a.toNat / 4) (a.toNat % 4 * 16 + b.toNat / 16) (b.toNat % 16 * 4) = some [a, b] := by
  have hb := b.toNat_lt
  have ha : a.toNat / 4 * 4 + (a.toNat % 4 * 16 + b.toNat / 16) / 16 = a.toNat := by omega
  have hb' : (a.toNat % 4 * 16 + b.toNat / 16) % 16 * 16 + b.toNat % 16 * 4 / 4 = b.toNat := by
    omega
  rw [two?, if_pos (by omega), eq_ofNat ha, eq_ofNat hb']

theorem three_bits (a b c : UInt8) :
    three (a.toNat / 4) (a.toNat % 4 * 16 + b.toNat / 16) (b.toNat % 16 * 4 + c.toNat / 64)
      (c.toNat % 64) = [a, b, c] := by
  have hb := b.toNat_lt
  have hc := c.toNat_lt
  have ha : a.toNat / 4 * 4 + (a.toNat % 4 * 16 + b.toNat / 16) / 16 = a.toNat := by omega
  have hb' : (a.toNat % 4 * 16 + b.toNat / 16) % 16 * 16 +
      (b.toNat % 16 * 4 + c.toNat / 64) / 4 = b.toNat := by omega
  have hc' : (b.toNat % 16 * 4 + c.toNat / 64) % 4 * 64 + c.toNat % 64 = c.toNat := by omega
  rw [three, eq_ofNat ha, eq_ofNat hb', eq_ofNat hc']

theorem decode?_encode (bytes : List UInt8) : decode? (encode bytes) = some bytes := by
  induction bytes using encode.induct with
  | case1 => rfl
  | case2 a =>
    have ha := a.toNat_lt
    rw [encode, decode?, if_pos ⟨rfl, rfl, rfl⟩, value?_char (by omega), value?_char (by omega)]
    exact one?_bits a
  | case3 a b =>
    have ha := a.toNat_lt
    have hb := b.toNat_lt
    have hr : char (b.toNat % 16 * 4) ≠ '=' := char_ne_pad (by omega)
    rw [encode, decode?, if_neg (fun h => hr h.1), if_pos ⟨rfl, rfl⟩, value?_char (by omega),
      value?_char (by omega), value?_char (by omega)]
    exact two?_bits a b
  | case4 a b c rest ih =>
    have ha := a.toNat_lt
    have hb := b.toNat_lt
    have hc := c.toNat_lt
    have hs : char (c.toNat % 64) ≠ '=' := char_ne_pad (by omega)
    rw [encode, decode?, if_neg (fun h => hs h.2.1), if_neg (fun h => hs h.1),
      value?_char (by omega), value?_char (by omega), value?_char (by omega),
      value?_char (by omega), ih]
    exact congrArg (fun group => some (group ++ rest)) (three_bits a b c)

/-- A character stands for one number, and no other one stands for the same. -/
theorem eq_char_of_value? {c : Char} {n : Nat} (h : value? c = some n) : n < 64 ∧ c = char n := by
  have hc : Char.ofNat c.toNat = c := Char.ofNat_toNat c
  unfold value? at h
  split at h
  · next hu =>
    have hr := Text.isUpper_iff.mp hu
    cases h
    refine ⟨by omega, ?_⟩
    rw [char, if_pos (by omega), Nat.sub_add_cancel hr.1, hc]
  split at h
  · next hl =>
    have hr := Text.isLower_iff.mp hl
    cases h
    refine ⟨by omega, ?_⟩
    rw [char, if_neg (by omega), if_pos (by omega), Nat.sub_add_cancel (by omega), hc]
  split at h
  · next hd =>
    have hr := Text.isDigit_iff.mp hd
    cases h
    refine ⟨by omega, ?_⟩
    rw [char, if_neg (by omega), if_neg (by omega), if_pos (by omega), Nat.add_sub_cancel, hc]
  split at h
  · next hp =>
    cases h
    exact ⟨by decide, hp⟩
  split at h
  · next hs =>
    cases h
    exact ⟨by decide, hs⟩
  · cases h

theorem toNat_firstByte {p q : Nat} (hp : p < 64) (hq : q < 64) :
    (UInt8.ofNat (p * 4 + q / 16)).toNat = p * 4 + q / 16 :=
  UInt8.toNat_ofNat_of_lt' (show p * 4 + q / 16 < 256 by omega)

theorem toNat_secondByte {q r : Nat} (hr : r < 64) :
    (UInt8.ofNat (q % 16 * 16 + r / 4)).toNat = q % 16 * 16 + r / 4 :=
  UInt8.toNat_ofNat_of_lt' (show q % 16 * 16 + r / 4 < 256 by omega)

/-- Bits that no byte uses are zeros, so the numbers of a byte are the only ones that give it. -/
theorem encode_of_one? {p q : Nat} {bytes : List UInt8} (hp : p < 64) (hq : q < 64)
    (h : one? p q = some bytes) : encode bytes = [char p, char q, '=', '='] := by
  unfold one? at h
  split at h
  · next hz =>
    cases h
    have hp' : (p * 4 + q / 16) / 4 = p := by omega
    have hq' : (p * 4 + q / 16) % 4 * 16 = q := by omega
    rw [encode, toNat_firstByte hp hq, hp', hq']
  · cases h

theorem encode_of_two? {p q r : Nat} {bytes : List UInt8} (hp : p < 64) (hq : q < 64) (hr : r < 64)
    (h : two? p q r = some bytes) : encode bytes = [char p, char q, char r, '='] := by
  unfold two? at h
  split at h
  · next hz =>
    cases h
    have hp' : (p * 4 + q / 16) / 4 = p := by omega
    have hq' : (p * 4 + q / 16) % 4 * 16 + (q % 16 * 16 + r / 4) / 16 = q := by omega
    have hr' : (q % 16 * 16 + r / 4) % 16 * 4 = r := by omega
    rw [encode, toNat_firstByte hp hq, toNat_secondByte hr, hp', hq', hr']
  · cases h

theorem encode_three_append {p q r s : Nat} (hp : p < 64) (hq : q < 64) (hr : r < 64) (hs : s < 64)
    (bytes : List UInt8) :
    encode (three p q r s ++ bytes) = char p :: char q :: char r :: char s :: encode bytes := by
  have hc : (UInt8.ofNat (r % 4 * 64 + s)).toNat = r % 4 * 64 + s :=
    UInt8.toNat_ofNat_of_lt' (show r % 4 * 64 + s < 256 by omega)
  have hp' : (p * 4 + q / 16) / 4 = p := by omega
  have hq' : (p * 4 + q / 16) % 4 * 16 + (q % 16 * 16 + r / 4) / 16 = q := by omega
  have hr' : (q % 16 * 16 + r / 4) % 16 * 4 + (r % 4 * 64 + s) / 64 = r := by omega
  have hs' : (r % 4 * 64 + s) % 64 = s := by omega
  rw [three, List.cons_append, List.cons_append, List.cons_append, List.nil_append, encode,
    toNat_firstByte hp hq, toNat_secondByte hr, hc, hp', hq', hr', hs']

/-- A text that is decoded is the one that encodes its bytes. -/
theorem eq_encode_of_decode? {s : List Char} {bytes : List UInt8} (h : decode? s = some bytes) :
    s = encode bytes := by
  induction s using decode?.induct generalizing bytes with
  | case1 =>
    cases h
    rfl
  | case2 p q r s rest hpad np nq hq hp =>
    obtain ⟨rfl, rfl, rfl⟩ := hpad
    obtain ⟨hp', rfl⟩ := eq_char_of_value? hp
    obtain ⟨hq', rfl⟩ := eq_char_of_value? hq
    rw [decode?, if_pos ⟨rfl, rfl, rfl⟩, hp, hq] at h
    exact (encode_of_one? hp' hq' h).symm
  | case4 p q r s rest hr hpad np nq nr hr' hq hp =>
    obtain ⟨rfl, rfl⟩ := hpad
    obtain ⟨hp', rfl⟩ := eq_char_of_value? hp
    obtain ⟨hq', rfl⟩ := eq_char_of_value? hq
    obtain ⟨hr'', rfl⟩ := eq_char_of_value? hr'
    rw [decode?, if_neg hr, if_pos ⟨rfl, rfl⟩, hp, hq, hr'] at h
    exact (encode_of_two? hp' hq' hr'' h).symm
  | case6 p q r s rest hr hs np nq nr ns more hrest hs' hr' hq hp ih =>
    obtain ⟨hp', rfl⟩ := eq_char_of_value? hp
    obtain ⟨hq', rfl⟩ := eq_char_of_value? hq
    obtain ⟨hr'', rfl⟩ := eq_char_of_value? hr'
    obtain ⟨hs'', rfl⟩ := eq_char_of_value? hs'
    rw [decode?, if_neg hr, if_neg hs, hp, hq, hr', hs', hrest] at h
    cases h
    rw [encode_three_append hp' hq' hr'' hs'', ← ih hrest]
  -- In the cases that are left nothing is decoded.
  | case3 p q r s rest hpad hn =>
    rw [decode?, if_pos hpad] at h
    split at h
    · next hp hq => exact (hn _ _ hp hq).elim
    · cases h
  | case5 p q r s rest hr hpad hn =>
    rw [decode?, if_neg hr, if_pos hpad] at h
    split at h
    · next hp hq hr' => exact (hn _ _ _ hp hq hr').elim
    · cases h
  | case7 p q r s rest hr hs hn ih =>
    rw [decode?, if_neg hr, if_neg hs] at h
    split at h
    · next hp hq hr' hs' hrest => exact (hn _ _ _ _ _ hp hq hr' hs' hrest).elim
    · cases h
  | case8 s hnil hgroup =>
    rw [decode?] at h
    · cases h
    · exact hnil
    · exact hgroup

end DiceBot.Bytes.Base64
