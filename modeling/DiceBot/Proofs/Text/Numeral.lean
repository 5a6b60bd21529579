import DiceBot.Proofs.Text.Run

/-!
Integers in decimal: the characters that they are written with, and how they are read back.
-/

namespace DiceBot.Text

theorem toString_ofNat (n : Nat) : toString (Int.ofNat n) = toString n := rfl

theorem toString_negSucc (n : Nat) : toString (Int.negSucc n) = "-" ++ toString (n + 1) := rfl

theorem toString_ne_nil (n : Nat) : (toString n).toList ≠ [] := by
  rw [Nat.toString_eq_repr, Nat.toList_repr]
  exact Nat.toDigits_ne_nil

/-- An integer is written with digits and perhaps a minus sign. -/
theorem mem_toString_int {n : Int} {c : Char} (h : c ∈ (toString n).toList) :
    c.isDigit = true ∨ c = '-' := by
  cases n with
  | ofNat n => exact .inl (isRun_toString n c h)
  | negSucc n =>
    rw [toString_negSucc, String.toList_append] at h
    rcases List.mem_append.mp h with h | h
    · exact .inr (List.mem_singleton.mp h)
    · exact .inl (isRun_toString (n + 1) c h)

theorem not_mem_toString_int {c : Char} (hd : c.isDigit = false) (hc : c ≠ '-') (n : Int) :
    c ∉ (toString n).toList := by
  intro hm
  rcases mem_toString_int hm with h | h
  · cases h.symm.trans hd
  · exact hc h

theorem readInt?_run {s : List Char} (h : IsRun s) (hne : s ≠ []) :
    readInt? s = some (Int.ofNat (numeral s)) := by
  unfold readInt?
  split
  · cases h '+' List.mem_cons_self
  · cases h '-' List.mem_cons_self
  · rw [readDigits?_run h hne]
    rfl

/-- An integer is read back from its decimals. -/
theorem readInt?_toString (n : Int) : readInt? (toString n).toList = some n := by
  cases n with
  | ofNat n =>
    rw [toString_ofNat, readInt?_run (isRun_toString n) (toString_ne_nil n), numeral_toString]
  | negSucc n =>
    have hs : (toString (Int.negSucc n)).toList = '-' :: (toString (n + 1)).toList := by
      rw [toString_negSucc, String.toList_append]
      rfl
    have hd := readDigits?_run (isRun_toString (n + 1)) (toString_ne_nil (n + 1))
    rw [numeral_toString] at hd
    rw [hs]
    exact congrArg (Option.map fun n => -Int.ofNat n) hd

theorem readInt64?_toString {n : Int} (h : Word.holdsSigned64 n = true) :
    readInt64? (toString n).toList = some n := by
  rw [readInt64?, readInt?_toString, Option.filter_some, if_pos h]

/-- Different integers have different decimals. -/
theorem toString_int_injective {n m : Int} (h : (toString n).toList = (toString m).toList) :
    n = m := by
  have hn := readInt?_toString n
  rw [h, readInt?_toString] at hn
  exact (Option.some.inj hn).symm

theorem not_mem_toString {c : Char} (h : c.isDigit = false) (n : Nat) :
    c ∉ (toString n).toList := by
  intro hm
  rw [isRun_toString n c hm] at h
  cases h

/-- A number ends where its digits end. -/
theorem toString_append_inj {n m : Nat} {x y : List Char} (hx : EndsRun x) (hy : EndsRun y)
    (h : (toString n).toList ++ x = (toString m).toList ++ y) : n = m ∧ x = y := by
  have hrun := congrArg (List.takeWhile Char.isDigit) h
  have hrest := congrArg (List.dropWhile Char.isDigit) h
  rw [takeWhile_run (isRun_toString n) hx, takeWhile_run (isRun_toString m) hy] at hrun
  rw [dropWhile_run (isRun_toString n) hx, dropWhile_run (isRun_toString m) hy] at hrest
  have hnum := congrArg numeral hrun
  rw [numeral_toString, numeral_toString] at hnum
  exact ⟨hnum, hrest⟩

theorem toString_append_ne_cons {c : Char} (hc : c.isDigit = false) (n : Nat) (x y : List Char) :
    (toString n).toList ++ x ≠ c :: y := by
  intro h
  cases hd : (toString n).toList with
  | nil => exact toString_ne_nil n hd
  | cons d digits =>
    rw [hd] at h
    cases h
    rw [isRun_toString n c (by rw [hd]; exact List.mem_cons_self)] at hc
    cases hc

/-- An integer ends where its digits end. -/
theorem toString_int_append_inj {n m : Int} {x y : List Char} (hx : EndsRun x) (hy : EndsRun y)
    (h : (toString n).toList ++ x = (toString m).toList ++ y) : n = m ∧ x = y := by
  have hminus (k : Nat) (z : List Char) : (toString (Int.negSucc k)).toList ++ z =
      '-' :: ((toString (k + 1)).toList ++ z) := by
    rw [toString_negSucc, String.toList_append]
    rfl
  cases n with
  | ofNat n =>
    cases m with
    | ofNat m =>
      obtain ⟨rfl, hxy⟩ := toString_append_inj hx hy h
      exact ⟨rfl, hxy⟩
    | negSucc m =>
      rw [hminus] at h
      exact absurd h (toString_append_ne_cons rfl n x _)
  | negSucc n =>
    cases m with
    | ofNat m =>
      rw [hminus] at h
      exact absurd h.symm (toString_append_ne_cons rfl m y _)
    | negSucc m =>
      rw [hminus, hminus] at h
      obtain ⟨he, hxy⟩ := toString_append_inj hx hy (List.cons.inj h).2
      cases he
      exact ⟨rfl, hxy⟩

end DiceBot.Text
