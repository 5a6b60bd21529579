import DiceBot.Proofs.Bytes.Hex
import DiceBot.Proofs.Bytes.Marked
import DiceBot.Proofs.Text.Ascii
import DiceBot.Proofs.Text.Split
import DiceBot.Web.Form

/-!
Pairs are read back from their form encoding, whatever characters they are made of. Percent signs are
decoded in parts, so blanks behind a form are blanks in its last pair.
-/

namespace DiceBot.Web

theorem percentDecode_cons {c : Char} (h : c ≠ '%') (rest : List Char) :
    percentDecode (c :: rest) = Bytes.utf8 (String.singleton c) ++ percentDecode rest := by
  rw [percentDecode]
  rintro high low rest' rfl
  exact absurd rfl h

theorem percentDecode_ascii {c : Char} (h : c ≠ '%') (h' : c.toNat < 128) (rest : List Char) :
    percentDecode (c :: rest) = UInt8.ofNat c.toNat :: percentDecode rest := by
  rw [percentDecode_cons h, Bytes.utf8_eq_flatMap, String.toList_singleton, List.flatMap_cons,
    Bytes.utf8EncodeChar_ascii h']
  rfl

/-- Text without percent signs is decoded as its own bytes, before any text. -/
theorem percentDecode_plain_append {s : List Char} (h : '%' ∉ s) (rest : List Char) :
    percentDecode (s ++ rest) = Bytes.utf8 (String.ofList s) ++ percentDecode rest := by
  induction s with
  | nil => rfl
  | cons c s ih =>
    rw [List.mem_cons, not_or] at h
    have hcons : String.ofList (c :: s) = String.singleton c ++ String.ofList s := by
      apply String.toList_injective
      simp
    rw [List.cons_append, percentDecode_cons (Ne.symm h.1), ih h.2, hcons, Bytes.utf8_append,
      List.append_assoc]

/-- A percent sign that no two digits follow stands for itself. -/
theorem percentDecode_percent {rest : List Char}
    (h : ∀ high low rest', rest = high :: low :: rest' → hexPair? high low = none) :
    percentDecode ('%' :: rest) = 0x25 :: percentDecode rest := by
  match rest with
  | [] => rfl
  | [high] =>
    rw [percentDecode]
    · rfl
    · simp
  | high :: low :: rest => rw [percentDecode, h high low rest rfl]

/-- What no digit starts does not change what stands before it. -/
theorem percentDecode_append (s : List Char) {t : List Char}
    (ht : ∀ c ∈ t.head?, Bytes.Hex.digit? c = none) :
    percentDecode (s ++ t) = percentDecode s ++ percentDecode t := by
  fun_induction percentDecode s with
  | case1 => rfl
  | case2 high low rest b hb ih =>
    rw [List.cons_append, List.cons_append, List.cons_append, percentDecode, hb, ih]
    rfl
  | case3 high low rest hb ih =>
    rw [List.cons_append, List.cons_append, List.cons_append, percentDecode, hb, ← List.cons_append,
      ← List.cons_append, ih]
    rfl
  | case4 c rest hc ih =>
    by_cases hpercent : c = '%'
    · subst hpercent
      rw [List.cons_append, percentDecode_percent, ih]
      · rfl
      · -- the pair takes a character of the text behind, which is no digit
        intro high low rest' he
        match rest, he with
        | [], he =>
          have hhigh : t = high :: low :: rest' := he
          simp [hexPair?, ht high (by simp [hhigh])]
        | [d], he =>
          have hlow : t = low :: rest' := (List.cons.inj he).2
          cases hd : Bytes.Hex.digit? high <;> simp [hexPair?, ht low (by simp [hlow]), hd]
        | d :: d' :: rest, _ => exact absurd rfl (hc d d' rest rfl)
    · rw [List.cons_append, percentDecode_cons hpercent, ih, List.append_assoc]

/-- Text without percent signs, and blanks, are decoded as their own bytes around any text. -/
theorem percentDecode_between {left right : List Char} (hleft : '%' ∉ left)
    (hright : ∀ c ∈ right, Text.isBlank c = true) (s : List Char) :
    percentDecode (left ++ s ++ right) =
      Bytes.utf8 (String.ofList left) ++ percentDecode s ++ Bytes.utf8 (String.ofList right) := by
  have hpercent : '%' ∉ right := fun hm => absurd (hright '%' hm) (by decide)
  have hplain := percentDecode_plain_append hpercent []
  rw [List.append_nil, percentDecode, List.append_nil] at hplain
  rw [List.append_assoc, percentDecode_plain_append hleft, percentDecode_append, hplain,
    List.append_assoc]
  intro c hc
  exact Bytes.Hex.digit?_of_isBlank (hright c (List.mem_of_mem_head? hc))

theorem percentByte_eq (b : UInt8) : percentByte b = ['%', (Nat.digitChar (b.toNat / 16)).toUpper,
    (Nat.digitChar (b.toNat % 16)).toUpper] := rfl

theorem digit?_toUpper_digitChar {n : Nat} (h : n < 16) :
    Bytes.Hex.digit? (Nat.digitChar n).toUpper = some n := by
  have hall : ∀ n < 16, Bytes.Hex.digit? (Nat.digitChar n).toUpper = some n := by decide
  exact hall n h

theorem toUpper_digitChar_isAlphanum {n : Nat} (h : n < 16) :
    (Nat.digitChar n).toUpper.isAlphanum = true := by
  have hall : ∀ n < 16, (Nat.digitChar n).toUpper.isAlphanum = true := by decide
  exact hall n h

theorem percentDecode_percentByte (b : UInt8) (rest : List Char) :
    percentDecode (percentByte b ++ rest) = b :: percentDecode rest := by
  have hb := b.toNat_lt
  have hpair : hexPair? (Nat.digitChar (b.toNat / 16)).toUpper
      (Nat.digitChar (b.toNat % 16)).toUpper = some b := by
    simp only [hexPair?, digit?_toUpper_digitChar (n := b.toNat / 16) (by omega),
      digit?_toUpper_digitChar (n := b.toNat % 16) (by omega), Nat.div_add_mod,
      UInt8.ofNat_toNat]
  rw [percentByte_eq, List.cons_append, List.cons_append, List.cons_append, List.nil_append,
    percentDecode, hpair]

namespace Form

/-- A character that the text of a form is made of, apart from its separators. -/
def IsPart (c : Char) : Prop := c.isAlphanum = true ∨ c ∈ ['*', '-', '.', '_', '+', '%']

instance (c : Char) : Decidable (IsPart c) := inferInstanceAs (Decidable (_ ∨ _))

theorem isPlain_iff {b : UInt8} : isPlain b = true ↔ b.toNat < 128 ∧
    ((Char.ofNat b.toNat).isAlphanum = true ∨ Char.ofNat b.toNat ∈ ['*', '-', '.', '_']) := by
  simp only [isPlain, Bool.and_eq_true, Bool.or_eq_true, decide_eq_true_eq, beq_iff_eq,
    UInt8.lt_iff_toNat_lt, List.mem_cons, List.not_mem_nil, or_false, or_assoc]
  rfl

theorem isPart_of_mem_encodeByte {b : UInt8} {c : Char} (h : c ∈ encodeByte b) : IsPart c := by
  unfold encodeByte at h
  split at h
  · next hplain =>
    rw [List.mem_singleton.mp h]
    rcases (isPlain_iff.mp hplain).2 with ha | hm
    · exact .inl ha
    · exact .inr (List.mem_append_left ['+', '%'] hm)
  · split at h
    · rw [List.mem_singleton.mp h]
      decide
    · have hb := b.toNat_lt
      rw [percentByte_eq] at h
      simp only [List.mem_cons, List.not_mem_nil, or_false] at h
      rcases h with rfl | rfl | rfl
      · decide
      · exact .inl (toUpper_digitChar_isAlphanum (by omega))
      · exact .inl (toUpper_digitChar_isAlphanum (by omega))

theorem isPart_of_mem_encode {s : String} {c : Char} (h : c ∈ encode s) : IsPart c := by
  obtain ⟨b, -, hc⟩ := List.mem_flatMap.mp h
  exact isPart_of_mem_encodeByte hc

/-- What a character stands for before percent signs are read. -/
def unplus (c : Char) : Char := if c = '+' then ' ' else c

theorem unplus_of_isAlphanum {c : Char} (h : c.isAlphanum = true) : unplus c = c := by
  refine if_neg ?_
  rintro rfl
  cases h

theorem percentDecode_encodeByte (b : UInt8) (rest : List Char) :
    percentDecode ((encodeByte b).map unplus ++ rest) = b :: percentDecode rest := by
  unfold encodeByte
  split
  · next hplain =>
    obtain ⟨hb, hc⟩ := isPlain_iff.mp hplain
    have hself : (Char.ofNat b.toNat).toNat = b.toNat := by
      rw [Char.ofNat, dif_pos (.inl (by omega))]
      rfl
    have hplus : Char.ofNat b.toNat ≠ '+' := by
      intro he
      rw [he] at hc
      revert hc
      decide
    have hpercent : Char.ofNat b.toNat ≠ '%' := by
      intro he
      rw [he] at hc
      revert hc
      decide
    change percentDecode (unplus (Char.ofNat b.toNat) :: rest) = _
    rw [unplus, if_neg hplus, percentDecode_ascii hpercent (by omega), hself, UInt8.ofNat_toNat]
  · split
    · next hb =>
      rw [hb]
      exact percentDecode_ascii (by decide) (by decide) rest
    · have hb := b.toNat_lt
      have hsame : (percentByte b).map unplus = percentByte b := by
        rw [percentByte_eq, List.map_cons, List.map_cons, List.map_cons, List.map_nil,
          unplus_of_isAlphanum (toUpper_digitChar_isAlphanum (by omega)),
          unplus_of_isAlphanum (toUpper_digitChar_isAlphanum (by omega))]
        rfl
      rw [hsame, percentDecode_percentByte]

theorem percentDecode_flatMap_encodeByte (bytes : List UInt8) :
    percentDecode ((bytes.flatMap encodeByte).map unplus) = bytes := by
  induction bytes with
  | nil => rfl
  | cons b bytes ih => rw [List.flatMap_cons, List.map_append, percentDecode_encodeByte, ih]

/-- Every text is read back from its form encoding, whatever its characters are. -/
theorem decode_encode (s : String) : decode (encode s) = s := by
  change Bytes.ofUtf8Marked (percentDecode (((Bytes.utf8 s).flatMap encodeByte).map unplus)) = s
  rw [percentDecode_flatMap_encodeByte, Bytes.ofUtf8Marked_utf8]

theorem decode_append_blanks (s : List Char) {blanks : List Char}
    (hb : ∀ c ∈ blanks, Text.isBlank c = true) :
    decode (s ++ blanks) = decode s ++ String.ofList blanks := by
  have hself : ∀ c ∈ blanks, unplus c = c := by
    intro c hc
    refine if_neg ?_
    rintro rfl
    cases hb '+' hc
  have hsame : blanks.map unplus = blanks := (List.map_congr_left hself).trans (List.map_id _)
  have hnil : '%' ∉ ([] : List Char) := List.not_mem_nil
  have hdecode := percentDecode_between hnil hb (s.map unplus)
  change Bytes.ofUtf8Marked (percentDecode ((s ++ blanks).map unplus)) = _
  rw [List.map_append, hsame]
  rw [List.nil_append] at hdecode
  rw [hdecode, Bytes.ofUtf8Marked_append_utf8]
  rfl

/-- Blanks behind a piece of a form are behind its name or behind its value. -/
theorem decodePair_append_blanks (piece : List Char) {blanks : List Char}
    (hb : ∀ c ∈ blanks, Text.isBlank c = true) : ∃ s,
      (decodePair (piece ++ blanks)).1 = s ++ String.ofList blanks ∨
        (decodePair (piece ++ blanks)).2 = s ++ String.ofList blanks := by
  have heq : '=' ∉ blanks := fun hm => absurd (hb '=' hm) (by decide)
  cases hs : Text.splitFirst '=' piece with
  | none =>
    have hnone : Text.splitFirst '=' (piece ++ blanks) = none := by
      rw [Text.splitFirst_eq_none_iff, List.mem_append, not_or]
      exact ⟨Text.splitFirst_eq_none_iff.mp hs, heq⟩
    refine ⟨decode piece, .inl ?_⟩
    rw [decodePair, hnone]
    exact decode_append_blanks piece hb
  | some parts =>
    obtain ⟨name, value⟩ := parts
    obtain ⟨rfl, hname⟩ := Text.splitFirst_eq_some_iff.mp hs
    have hsome : Text.splitFirst '=' (name ++ '=' :: value ++ blanks) =
        some (name, value ++ blanks) :=
      Text.splitFirst_eq_some_iff.mpr ⟨by simp, hname⟩
    refine ⟨decode value, .inr ?_⟩
    rw [decodePair, hsome]
    exact decode_append_blanks value hb

theorem decodePair_encodePair (pair : String × String) : decodePair (encodePair pair) = pair := by
  have hname : '=' ∉ encode pair.1 := fun hm => absurd (isPart_of_mem_encode hm) (by decide)
  have hsplit : Text.splitFirst '=' (encodePair pair) = some (encode pair.1, encode pair.2) := by
    refine Text.splitFirst_eq_some_iff.mpr ⟨?_, hname⟩
    rw [encodePair, List.append_assoc]
    rfl
  rw [decodePair, hsplit]
  change (decode (encode pair.1), decode (encode pair.2)) = pair
  rw [decode_encode, decode_encode]

theorem mem_encodePair {pair : String × String} {c : Char} (h : c ∈ encodePair pair) :
    IsPart c ∨ c = '=' := by
  rcases List.mem_append.mp h with h | h
  · rcases List.mem_append.mp h with h | h
    · exact .inl (isPart_of_mem_encode h)
    · exact .inr (List.mem_singleton.mp h)
  · exact .inl (isPart_of_mem_encode h)

/-- Two forms with an ampersand between them are one form. -/
theorem decodePairs_append_cons (a b : List Char) :
    decodePairs (a ++ '&' :: b) = decodePairs a ++ decodePairs b := by
  unfold decodePairs
  rw [List.splitOn_append_cons_self, List.filter_append, List.map_append]

/-- What stands behind a form belongs to its last piece. -/
theorem exists_mem_decodePairs_append (s : List Char) {t : List Char} (ht : t ≠ [])
    (hamp : '&' ∉ t) : ∃ piece, decodePair (piece ++ t) ∈ decodePairs (s ++ t) := by
  induction hn : s.length using Nat.strongRecOn generalizing s with
  | _ n ih =>
    by_cases hs : '&' ∈ s
    · obtain ⟨first, rest, rfl, -⟩ := List.eq_append_cons_of_mem hs
      obtain ⟨piece, hp⟩ := ih rest.length (by simp at hn; omega) rest rfl
      rw [List.append_assoc, List.cons_append, decodePairs_append_cons]
      exact ⟨piece, List.mem_append_right _ hp⟩
    · have hst : '&' ∉ s ++ t := by simp [hs, hamp]
      refine ⟨s, List.mem_map_of_mem ?_⟩
      rw [List.splitOn_eq_singleton hst]
      simp [ht]

theorem decodePairs_encodePair (pair : String × String) :
    decodePairs (encodePair pair) = [pair] := by
  have hamp : '&' ∉ encodePair pair := by
    intro hm
    rcases mem_encodePair hm with h | h
    · exact absurd h (by decide)
    · cases h
  have hne : encodePair pair ≠ [] := by simp [encodePair]
  unfold decodePairs
  rw [List.splitOn_eq_singleton hamp, List.filter_cons_of_pos (by simpa using hne), List.filter_nil,
    List.map_cons, List.map_nil, decodePair_encodePair]

/-- Pairs are read back from their form encoding, in their order. -/
theorem decodePairs_encodePairs (pairs : List (String × String)) :
    decodePairs (encodePairs pairs) = pairs := by
  unfold encodePairs
  induction pairs with
  | nil => rfl
  | cons pair pairs ih =>
    cases pairs with
    | nil =>
      rw [List.map_cons, List.map_nil, List.intercalate_singleton]
      exact decodePairs_encodePair pair
    | cons next pairs =>
      rw [List.map_cons, List.map_cons, List.intercalate_cons_cons, ← List.map_cons,
        List.append_assoc, List.singleton_append, decodePairs_append_cons, ih,
        decodePairs_encodePair]
      rfl

theorem mem_encodePairs {pairs : List (String × String)} {c : Char} (h : c ∈ encodePairs pairs) :
    IsPart c ∨ c = '=' ∨ c = '&' := by
  rcases Text.mem_intercalate h with h | ⟨piece, hp, h⟩
  · exact .inr (.inr (List.mem_singleton.mp h))
  · obtain ⟨pair, -, rfl⟩ := List.mem_map.mp hp
    exact (mem_encodePair h).imp_right .inl

end Form
end DiceBot.Web
