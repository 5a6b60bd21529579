import DiceBot.Bytes.Hex
import DiceBot.Proofs.Text.Ascii

/-!
Bytes are read back from their hexadecimal digits, and the texts that are read at all: pairs of
digits, with a plus sign in place of a zero that stands first in its pair.
-/

namespace DiceBot.Bytes.Hex

theorem digit?_digitChar {n : Nat} (h : n < 16) : digit? (Nat.digitChar n) = some n := by
  have hall : ∀ n < 16, digit? (Nat.digitChar n) = some n := by decide
  exact hall n h

theorem digitChar_isAlphanum {n : Nat} (h : n < 16) : (Nat.digitChar n).isAlphanum = true := by
  have hall : ∀ n < 16, (Nat.digitChar n).isAlphanum = true := by decide
  exact hall n h

theorem isAlphanum_of_digit? {c : Char} {n : Nat} (h : digit? c = some n) :
    c.isAlphanum = true := by
  rw [Text.isAlphanum_iff, Text.isUpper_iff, Text.isLower_iff]
  unfold digit? at h
  split at h
  · next hdigit => exact .inr hdigit
  split at h
  · next hlower =>
    have hf : c.toNat ≤ 0x66 := hlower.2
    exact .inl (.inr ⟨hlower.1, by omega⟩)
  split at h
  · next hupper =>
    have hf : c.toNat ≤ 0x46 := hupper.2
    exact .inl (.inl ⟨hupper.1, by omega⟩)
  · cases h

theorem digit?_of_isBlank {c : Char} (h : Text.isBlank c = true) : digit? c = none := by
  cases hd : digit? c with
  | none => rfl
  | some n =>
    rw [Text.isBlank_of_isAlphanum (isAlphanum_of_digit? hd)] at h
    cases h

theorem byte?_digits (b : UInt8) :
    byte? (Nat.digitChar (b.toNat / 16)) (Nat.digitChar (b.toNat % 16)) = some b := by
  have hb := b.toNat_lt
  have hhigh : b.toNat / 16 < 16 := by omega
  have hlow : b.toNat % 16 < 16 := by omega
  have hplus : Nat.digitChar (b.toNat / 16) ≠ '+' := by
    intro he
    have ha := digitChar_isAlphanum hhigh
    rw [he] at ha
    cases ha
  rw [byte?, if_neg hplus, digit?_digitChar hhigh, digit?_digitChar hlow]
  change some (UInt8.ofNat (16 * (b.toNat / 16) + b.toNat % 16)) = some b
  rw [Nat.div_add_mod, UInt8.ofNat_toNat]

theorem encode_cons (b : UInt8) (bytes : List UInt8) : encode (b :: bytes) =
    Nat.digitChar (b.toNat / 16) :: Nat.digitChar (b.toNat % 16) :: encode bytes := rfl

theorem pairs?_encode (bytes : List UInt8) : pairs? (encode bytes) = some bytes := by
  induction bytes with
  | nil => rfl
  | cons b bytes ih => rw [encode_cons, pairs?, byte?_digits, ih]

theorem decode?_encode {bytes : List UInt8} (h : bytes ≠ []) :
    decode? (encode bytes) = some bytes := by
  cases bytes with
  | nil => exact absurd rfl h
  | cons b bytes => exact pairs?_encode (b :: bytes)

theorem isAlphanum_of_mem_encode {bytes : List UInt8} {c : Char} (h : c ∈ encode bytes) :
    c.isAlphanum = true := by
  obtain ⟨b, -, hc⟩ := List.mem_flatMap.mp h
  have hb := b.toNat_lt
  rcases List.mem_cons.mp hc with rfl | hc
  · exact digitChar_isAlphanum (by omega)
  · rw [List.mem_singleton.mp hc]
    exact digitChar_isAlphanum (by omega)

/-- A decimal digit, or one of the first six letters in either case. -/
def IsDigit (c : Char) : Prop :=
  c.isDigit = true ∨ ('a' ≤ c ∧ c ≤ 'f') ∨ ('A' ≤ c ∧ c ≤ 'F')

theorem exists_digit?_iff {c : Char} : (∃ n, digit? c = some n) ↔ IsDigit c := by
  unfold digit? IsDigit
  split
  · next h => simp [h]
  split
  · next h => simp [h]
  split
  · next h => simp [h]
  · simp_all

theorem not_isDigit_plus : ¬ IsDigit '+' := by
  unfold IsDigit
  decide

theorem toNat_digitChar_of_letter {n : Nat} (h : 10 ≤ n) (h' : n < 16) :
    (Nat.digitChar n).toNat = 87 + n := by
  have hall : ∀ n < 16, 10 ≤ n → (Nat.digitChar n).toNat = 87 + n := by decide
  exact hall n h' h

/-- The value of a digit is written as that digit in lower case. -/
theorem digitChar_of_digit? {c : Char} {n : Nat} (h : digit? c = some n) :
    n < 16 ∧ Nat.digitChar n = c.toLower := by
  unfold digit? at h
  split at h
  · next hdigit =>
    have hc := Text.isDigit_iff.mp hdigit
    cases h
    refine ⟨by omega, Char.toNat_inj.mp ?_⟩
    rw [Text.toLower_eq_self (by omega), Nat.toNat_digitChar_of_lt_ten (by omega)]
    omega
  split at h
  · next hletter =>
    have hc : 0x61 ≤ c.toNat ∧ c.toNat ≤ 0x66 := hletter
    cases h
    refine ⟨by omega, Char.toNat_inj.mp ?_⟩
    rw [Text.toLower_eq_self (by omega), toNat_digitChar_of_letter (by omega) (by omega)]
    omega
  split at h
  · next hletter =>
    have hc : 0x41 ≤ c.toNat ∧ c.toNat ≤ 0x46 := hletter
    cases h
    refine ⟨by omega, Char.toNat_inj.mp ?_⟩
    rw [Text.toNat_toLower (by omega), toNat_digitChar_of_letter (by omega) (by omega)]
    omega
  · cases h

/-- A plus sign as the zero that it is read as. -/
def unsigned (c : Char) : Char := if c = '+' then '0' else c

theorem unsigned_plus : unsigned '+' = '0' := rfl

theorem unsigned_of_ne {c : Char} (h : c ≠ '+') : unsigned c = c := if_neg h

theorem unsigned_of_isDigit {c : Char} (h : IsDigit c) : unsigned c = c :=
  unsigned_of_ne fun hc => not_isDigit_plus (hc ▸ h)

theorem isDigit_unsigned_iff {c : Char} : IsDigit (unsigned c) ↔ IsDigit c ∨ c = '+' := by
  by_cases h : c = '+'
  · subst h
    exact ⟨fun _ => .inr rfl, fun _ => .inl rfl⟩
  · rw [unsigned_of_ne h, or_iff_left h]

theorem byte?_eq_some_iff {high low : Char} {b : UInt8} :
    byte? high low = some b ↔ ∃ m n, digit? (unsigned high) = some m ∧ digit? low = some n ∧
      UInt8.ofNat (16 * m + n) = b := by
  by_cases h : high = '+'
  · subst h
    have hzero : digit? '0' = some 0 := rfl
    simp [byte?, unsigned_plus, hzero]
  · rw [byte?, if_neg h, unsigned_of_ne h]
    cases digit? high <;> cases digit? low <;> simp

theorem exists_byte?_iff {high low : Char} :
    (∃ b, byte? high low = some b) ↔ IsDigit (unsigned high) ∧ IsDigit low := by
  simp only [byte?_eq_some_iff, ← exists_digit?_iff]
  constructor
  · rintro ⟨_, m, n, hm, hn, -⟩
    exact ⟨⟨m, hm⟩, n, hn⟩
  · rintro ⟨⟨m, hm⟩, n, hn⟩
    exact ⟨_, m, n, hm, hn, rfl⟩

theorem digits_of_byte? {high low : Char} {b : UInt8} (h : byte? high low = some b) :
    Nat.digitChar (b.toNat / 16) = (unsigned high).toLower ∧
      Nat.digitChar (b.toNat % 16) = (unsigned low).toLower := by
  obtain ⟨m, n, hm, hn, rfl⟩ := byte?_eq_some_iff.mp h
  have hlow : unsigned low = low := unsigned_of_isDigit (exists_digit?_iff.mp ⟨n, hn⟩)
  obtain ⟨hm16, hm⟩ := digitChar_of_digit? hm
  obtain ⟨hn16, hn⟩ := digitChar_of_digit? hn
  have hb : (UInt8.ofNat (16 * m + n)).toNat = 16 * m + n :=
    UInt8.toNat_ofNat_of_lt' (show 16 * m + n < 256 by omega)
  have hdiv : (16 * m + n) / 16 = m := by omega
  have hmod : (16 * m + n) % 16 = n := by omega
  rw [hb, hdiv, hmod, hlow]
  exact ⟨hm, hn⟩

/-- Pairs of digits, where a plus sign may stand for the first digit of a pair. -/
inductive Paired : List Char → Prop where
  | nil : Paired []
  | pair {high low : Char} {rest : List Char} (first : IsDigit high ∨ high = '+')
      (second : IsDigit low) (tail : Paired rest) : Paired (high :: low :: rest)

theorem pairs?_cons_eq_some_iff {high low : Char} {rest : List Char} {bytes : List UInt8} :
    pairs? (high :: low :: rest) = some bytes ↔
      ∃ b tail, byte? high low = some b ∧ pairs? rest = some tail ∧ b :: tail = bytes := by
  rw [pairs?]
  cases byte? high low <;> cases pairs? rest <;> simp

/-- A text that is read is made of pairs, and its bytes are written as the text in lower case, with
zeros for its plus signs. -/
theorem paired_of_pairs? {s : List Char} {bytes : List UInt8} (h : pairs? s = some bytes) :
    Paired s ∧ encode bytes = (s.map unsigned).map Char.toLower := by
  match s with
  | [] =>
    cases h
    exact ⟨.nil, rfl⟩
  | [_] => cases h
  | high :: low :: rest =>
    obtain ⟨b, tail, hb, ht, rfl⟩ := pairs?_cons_eq_some_iff.mp h
    obtain ⟨hpaired, htail⟩ := paired_of_pairs? ht
    obtain ⟨hhigh, hlow⟩ := exists_byte?_iff.mp ⟨b, hb⟩
    obtain ⟨hfirst, hsecond⟩ := digits_of_byte? hb
    refine ⟨.pair (isDigit_unsigned_iff.mp hhigh) hlow hpaired, ?_⟩
    rw [encode_cons, htail, hfirst, hsecond]
    rfl

theorem Paired.exists_pairs? {s : List Char} (h : Paired s) : ∃ bytes, pairs? s = some bytes := by
  induction h with
  | nil => exact ⟨[], rfl⟩
  | pair first second _ ih =>
    obtain ⟨b, hb⟩ := exists_byte?_iff.mpr ⟨isDigit_unsigned_iff.mpr first, second⟩
    obtain ⟨bytes, ht⟩ := ih
    exact ⟨b :: bytes, pairs?_cons_eq_some_iff.mpr ⟨b, bytes, hb, ht, rfl⟩⟩

theorem decode?_eq_some_iff {s : List Char} {bytes : List UInt8} :
    decode? s = some bytes ↔ s ≠ [] ∧ pairs? s = some bytes := by
  unfold decode?
  split <;> simp [*]

theorem exists_decode?_iff {s : List Char} :
    (∃ bytes, decode? s = some bytes) ↔ s ≠ [] ∧ Paired s := by
  simp only [decode?_eq_some_iff, exists_and_left]
  exact and_congr_right fun _ => ⟨fun ⟨_, h⟩ => (paired_of_pairs? h).1, Paired.exists_pairs?⟩

/-- Without plus signs, pairs of digits are digits in an even number. -/
theorem paired_iff {s : List Char} (hs : '+' ∉ s) :
    Paired s ↔ s.length % 2 = 0 ∧ ∀ c ∈ s, IsDigit c := by
  match s with
  | [] => simp [Paired.nil]
  | [_] =>
    constructor
    · intro h
      cases h
    · rintro ⟨heven, -⟩
      cases heven
  | high :: low :: rest =>
    have hrest : '+' ∉ rest := by simp_all
    have hhigh : high ≠ '+' := by simp_all [eq_comm]
    have hlength : (high :: low :: rest).length % 2 = rest.length % 2 :=
      Nat.add_mod_right rest.length 2
    rw [hlength, List.forall_mem_cons, List.forall_mem_cons]
    constructor
    · rintro (_ | ⟨first, second, tail⟩)
      obtain ⟨heven, hdigits⟩ := (paired_iff hrest).mp tail
      exact ⟨heven, first.resolve_right hhigh, second, hdigits⟩
    · rintro ⟨heven, first, second, hdigits⟩
      exact .pair (.inl first) second ((paired_iff hrest).mpr ⟨heven, hdigits⟩)

/-- Digits in an even number are the pairs without a plus sign. -/
theorem digits_iff {s : List Char} :
    (s.length % 2 = 0 ∧ ∀ c ∈ s, IsDigit c) ↔ Paired s ∧ '+' ∉ s := by
  constructor
  · intro h
    have hs : '+' ∉ s := fun hplus => not_isDigit_plus (h.2 '+' hplus)
    exact ⟨(paired_iff hs).mpr h, hs⟩
  · rintro ⟨hpaired, hs⟩
    exact (paired_iff hs).mp hpaired

theorem map_unsigned {s : List Char} (hs : '+' ∉ s) : s.map unsigned = s := by
  have hid : ∀ c ∈ s, unsigned c = id c := by
    intro c hc
    apply unsigned_of_ne
    rintro rfl
    exact hs hc
  rw [List.map_congr_left hid, List.map_id]

/-- Bytes are read back from their digits. What is read is a text of pairs, and its bytes are
written as that text in lower case with zeros for its plus signs. So a text is read exactly if it is
made of digits in an even number, at least two, unless it is made of pairs with a plus sign among
them; and the bytes of a text without plus signs are written as the text in lower case. -/
theorem hex_codec (s : List Char) (bytes : List UInt8) :
    (bytes ≠ [] → decode? (encode bytes) = some bytes) ∧
    ((∃ read, decode? s = some read) ↔ s ≠ [] ∧ Paired s) ∧
    (decode? s = some bytes → encode bytes = (s.map unsigned).map Char.toLower) ∧
    (((∃ read, decode? s = some read) ↔ s ≠ [] ∧ s.length % 2 = 0 ∧ ∀ c ∈ s, IsDigit c) ↔
      ¬ (Paired s ∧ '+' ∈ s)) ∧
    ('+' ∉ s → decode? s = some bytes → encode bytes = s.map Char.toLower) := by
  have hwritten (h : decode? s = some bytes) :
      encode bytes = (s.map unsigned).map Char.toLower :=
    (paired_of_pairs? (decode?_eq_some_iff.mp h).2).2
  refine ⟨decode?_encode, exists_decode?_iff, hwritten, ?_, ?_⟩
  · rw [exists_decode?_iff, digits_iff]
    have hne (hplus : '+' ∈ s) : s ≠ [] := List.ne_nil_of_mem hplus
    constructor
    · rintro h ⟨hpaired, hplus⟩
      exact (h.mp ⟨hne hplus, hpaired⟩).2.2 hplus
    · intro h
      exact and_congr_right fun _ => (and_iff_left_of_imp fun hp hplus => h ⟨hp, hplus⟩).symm
  · intro hs h
    rw [hwritten h, map_unsigned hs]

/-- Three bytes from a text with letters in both cases, and one from a text with a plus sign. -/
theorem hex_codec_cased :
    decode? (encode [0x00, 0xff, 0xab]) = some [0x00, 0xff, 0xab] ∧
    decode? ['0', '0', 'f', 'f', 'A', 'B'] = some [0x00, 0xff, 0xab] ∧
    encode [0x00, 0xff, 0xab] = ['0', '0', 'f', 'f', 'A', 'B'].map Char.toLower ∧
    decode? ['+', 'F'] = some [0x0f] ∧
    encode [0x0f] = (['+', 'F'].map unsigned).map Char.toLower := by
  have hcased : decode? ['0', '0', 'f', 'f', 'A', 'B'] = some [0x00, 0xff, 0xab] := by decide
  have hplus : decode? ['+', 'F'] = some [0x0f] := by decide
  obtain ⟨hback, -, -, -, hlower⟩ :=
    hex_codec ['0', '0', 'f', 'f', 'A', 'B'] [0x00, 0xff, 0xab]
  exact ⟨hback (by simp), hcased, hlower (by simp) hcased, hplus,
    (hex_codec ['+', 'F'] [0x0f]).2.2.1 hplus⟩

/-- Not only digits are read. -/
theorem hex_codec_plus :
    ¬ ∀ s : List Char, (∃ bytes, decode? s = some bytes) ↔
      s ≠ [] ∧ s.length % 2 = 0 ∧ ∀ c ∈ s, IsDigit c := by
  intro h
  have hread : ∃ bytes, decode? ['+', 'f'] = some bytes := ⟨[0x0f], by decide⟩
  have hdigit : IsDigit '+' := ((h _).mp hread).2.2 '+' (by simp)
  exact not_isDigit_plus hdigit

end DiceBot.Bytes.Hex
