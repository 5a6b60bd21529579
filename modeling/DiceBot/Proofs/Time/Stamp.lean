import DiceBot.Proofs.Text.Run
import DiceBot.Proofs.Time.Calendar
import DiceBot.Time.Stamp

/-!
An instant of the years 0 to 9999 is read back from its timestamp.
-/

namespace DiceBot.Time

open Text (IsRun EndsRun)

theorem isRun_padded (width n : Nat) : IsRun (padded width n) := by
  apply Text.isRun_append
  · intro c hc
    rw [List.eq_of_mem_replicate hc]
    rfl
  · exact Text.isRun_toString n

theorem numeral_padded (width n : Nat) : Text.numeral (padded width n) = n := by
  have h := Text.numeral_toString n
  unfold Text.numeral at *
  rw [padded, Nat.ofDigitChars_append, Nat.ofDigitChars_replicate_zero, Nat.mul_zero, h]

theorem length_padded {width n : Nat} (h : n < Nat.pow 10 width) (hw : 0 < width) :
    (padded width n).length = width := by
  have hl : (toString n).toList.length ≤ width := by
    rw [Nat.toString_eq_repr, Nat.toList_repr]
    exact (Nat.length_toDigits_le_iff (by decide) hw).mpr h
  rw [padded, List.length_append, List.length_replicate, Nat.sub_add_cancel hl]

theorem padded_ne_nil (width n : Nat) : padded width n ≠ [] := by
  unfold padded
  rw [Nat.toString_eq_repr, Nat.toList_repr]
  exact List.append_ne_nil_of_right_ne_nil _ Nat.toDigits_ne_nil

theorem takeNumber?_padded {width n : Nat} (h : n < Nat.pow 10 width) (hw : 0 < width)
    (rest : List Char) : takeNumber? width (padded width n ++ rest) = some (n, rest) := by
  have hl := length_padded h hw
  have hlong : ¬ (padded width n ++ rest).length < width := by
    rw [List.length_append, hl]
    omega
  rw [takeNumber?, if_neg hlong, List.take_left' hl, List.drop_left' hl,
    Text.readDigits?_run (isRun_padded width n) (padded_ne_nil width n), numeral_padded]
  rfl

/-- A fraction of up to nine digits is the number of nanoseconds that it was written for. -/
theorem takeFraction?_padded {width n : Nat} (h : n < Nat.pow 10 width) (hw : 0 < width)
    (h9 : width ≤ 9) {rest : List Char} (hr : EndsRun rest) :
    takeFraction? ('.' :: padded width n ++ rest) = some (n * Nat.pow 10 (9 - width), rest) := by
  have hl := length_padded h hw
  have ht : (padded width n).take 9 = padded width n := List.take_of_length_le (by omega)
  simp only [takeFraction?, List.cons_append, Text.takeWhile_run (isRun_padded width n) hr,
    Text.dropWhile_run (isRun_padded width n) hr, if_neg (padded_ne_nil width n), ht, hl,
    numeral_padded]

theorem takeFraction?_fractionText {nanos : Nat} (h : nanos < nanosInSecond) {c : Char}
    (hc : c.isDigit = false) (hd : c ≠ '.') (rest : List Char) :
    takeFraction? (fractionText nanos ++ c :: rest) = some (nanos, c :: rest) := by
  have hr : EndsRun (c :: rest) := Text.endsRun_cons hc
  unfold nanosInSecond at h
  unfold fractionText
  split
  · next h0 =>
    rw [h0, List.nil_append, takeFraction?]
    intro rest' he
    cases he
    exact hd rfl
  · split
    · next h6 =>
      have hn : nanos / 1000000 < Nat.pow 10 3 := show nanos / 1000000 < 1000 by omega
      have he : nanos / 1000000 * Nat.pow 10 6 = nanos := show nanos / 1000000 * 1000000 = _ by omega
      rw [takeFraction?_padded hn (by decide) (by decide) hr, he]
    · split
      · next h3 =>
        have hn : nanos / 1000 < Nat.pow 10 6 := show nanos / 1000 < 1000000 by omega
        have he : nanos / 1000 * Nat.pow 10 3 = nanos := show nanos / 1000 * 1000 = _ by omega
        rw [takeFraction?_padded hn (by decide) (by decide) hr, he]
      · have hn : nanos < Nat.pow 10 9 := h
        have he : nanos * Nat.pow 10 0 = nanos := Nat.mul_one nanos
        rw [takeFraction?_padded hn (by decide) (by decide) hr, he]

/-- What is read of numbers within the widths that they are written in. -/
theorem ofStamp?_padded {year month day hour minute second nanos : Nat} (hy : year < 10000)
    (hm : month < 100) (hd : day < 100) (hh : hour < 24) (hi : minute < 60) (hs : second ≤ 60)
    (hn : nanos < nanosInSecond) (hv : (Date.mk year month day).isValid = true) :
    Instant.ofStamp? (String.ofList (padded 4 year ++ '-' :: (padded 2 month ++ '-' ::
      (padded 2 day ++ 'T' :: (padded 2 hour ++ ':' :: (padded 2 minute ++ ':' ::
      (padded 2 second ++ (fractionText nanos ++ ['+', '0', '0', ':', '0', '0'])))))))) =
    some ⟨(Date.mk year month day).dayNumber * secondsInDay +
        (hour * 3600 + minute * 60 + (second - (if second = 60 then 1 else 0) : Nat)),
      nanos + (if second = 60 then 1 else 0) * nanosInSecond⟩ := by
  have h4 (rest : List Char) : takeNumber? 4 (padded 4 year ++ rest) = some (year, rest) :=
    takeNumber?_padded hy (by decide) rest
  have h2 {n : Nat} (h : n < 100) (rest : List Char) :
      takeNumber? 2 (padded 2 n ++ rest) = some (n, rest) :=
    takeNumber?_padded h (by decide) rest
  have hdash (rest : List Char) : takeOneOf? ['-'] ('-' :: rest) = some rest := rfl
  have hcolon (rest : List Char) : takeOneOf? [':'] (':' :: rest) = some rest := rfl
  have htime (rest : List Char) : takeOneOf? ['T', 't', ' '] ('T' :: rest) = some rest := rfl
  have ho : readOffset? ['+', '0', '0', ':', '0', '0'] = some 0 := by decide
  have hf := takeFraction?_fractionText hn (c := '+') rfl (by decide) ['0', '0', ':', '0', '0']
  have hwhole : ¬ (!true || decide (hour ≥ 24) || decide (minute ≥ 60) || decide (second > 60)) =
      true := by
    simp only [Bool.not_true, Bool.false_or, Bool.or_eq_true, decide_eq_true_eq]
    omega
  unfold Instant.ofStamp?
  simp only [String.toList_ofList, h4, h2 hm, h2 hd, h2 (show hour < 100 by omega),
    h2 (show minute < 100 by omega), h2 (show second < 100 by omega), hdash, hcolon, htime, hf, ho,
    hv, Option.bind_eq_bind, Option.bind_some]
  rw [if_neg hwhole, Int.sub_zero]

/-- The day of an instant, as a date. -/
def Instant.date (t : Instant) : Date := Date.ofDayNumber (t.seconds / secondsInDay)

/-- An instant of the years 0 to 9999. Only the last second of a minute may be counted twice. -/
structure Instant.Dated (t : Instant) : Prop where
  year_nonneg : 0 ≤ t.date.year
  year_le : t.date.year ≤ 9999
  nanos_lt : t.nanos < nanosInSecond ∨ (t.nanos < 2 * nanosInSecond ∧ t.seconds % 60 = 59)

theorem daysInMonth_le_31 (year month : Int) : daysInMonth year month ≤ 31 := by
  unfold daysInMonth
  split
  · split <;> decide
  · split <;> decide

/-- Every date of a day is written with a month and a day of two digits. -/
theorem Instant.date_range (t : Instant) :
    1 ≤ t.date.month ∧ t.date.month ≤ 12 ∧ 1 ≤ t.date.day ∧ t.date.day ≤ 31 := by
  have hv : t.date.isValid = true := Date.isValid_ofDayNumber _
  have hl := daysInMonth_le_31 t.date.year t.date.month
  simp only [Date.isValid, Bool.and_eq_true, decide_eq_true_eq] at hv
  omega

theorem Instant.stamp_eq {t : Instant} (h : t.Dated) :
    t.stamp = String.ofList (padded 4 t.date.year.toNat ++ '-' ::
      (padded 2 t.date.month.toNat ++ '-' :: (padded 2 t.date.day.toNat ++ 'T' ::
      (padded 2 ((t.seconds % secondsInDay).toNat / 3600) ++ ':' ::
      (padded 2 ((t.seconds % secondsInDay).toNat / 60 % 60) ++ ':' ::
      (padded 2 ((t.seconds % secondsInDay).toNat % 60 +
        if nanosInSecond ≤ t.nanos then 1 else 0) ++
      (fractionText (t.nanos - (if nanosInSecond ≤ t.nanos then 1 else 0) * nanosInSecond) ++
        ['+', '0', '0', ':', '0', '0']))))))) := by
  have hy : yearText t.date.year = padded 4 t.date.year.toNat :=
    if_pos ⟨h.year_nonneg, h.year_le⟩
  rw [← hy]
  simp only [Instant.stamp, Instant.date, List.append_assoc, List.cons_append, List.nil_append]

/-- What is written of an instant is read as that instant. -/
theorem Instant.ofStamp?_stamp {t : Instant} (h : t.Dated) : ofStamp? t.stamp = some t := by
  obtain ⟨hm, hm', hd, hd'⟩ := t.date_range
  have hy := h.year_nonneg
  have hy' := h.year_le
  have hdate : Date.mk t.date.year.toNat t.date.month.toNat t.date.day.toNat = t.date := by
    rw [Int.toNat_of_nonneg hy, Int.toNat_of_nonneg (by omega), Int.toNat_of_nonneg (by omega)]
  have hvalid : t.date.isValid = true := Date.isValid_ofDayNumber _
  have hday : t.date.dayNumber = t.seconds / secondsInDay := Date.dayNumber_ofDayNumber _
  rw [stamp_eq h]
  have hsum := Int.mul_ediv_add_emod t.seconds secondsInDay
  have hs : 0 ≤ t.seconds % secondsInDay := Int.emod_nonneg _ (by decide)
  have hs' : t.seconds % secondsInDay < secondsInDay := Int.emod_lt_of_pos _ (by decide)
  have h60 : t.seconds % secondsInDay % 60 = t.seconds % 60 := Int.emod_emod_of_dvd _ (by decide)
  obtain ⟨n, hn⟩ := Int.eq_ofNat_of_zero_le hs
  rw [hn] at hsum hs' h60 ⊢
  rw [Int.toNat_natCast]
  have hleap : ∃ leap, (if nanosInSecond ≤ t.nanos then 1 else 0) = leap ∧
      ((leap = 0 ∧ t.nanos < nanosInSecond) ∨
        (leap = 1 ∧ nanosInSecond ≤ t.nanos ∧ t.nanos < 2 * nanosInSecond ∧ n % 60 = 59)) := by
    refine ⟨_, rfl, ?_⟩
    have hnanos := h.nanos_lt
    split
    · right
      omega
    · left
      omega
  obtain ⟨leap, he, hleap⟩ := hleap
  rw [he]
  have hback : (if n % 60 + leap = 60 then 1 else 0) = leap := by
    split <;> omega
  unfold nanosInSecond secondsInDay at *
  rw [ofStamp?_padded (by omega) (by omega) (by omega) (by omega) (by omega) (by omega)
    (by unfold nanosInSecond; omega) (hdate ▸ hvalid), hdate, hday, hback]
  unfold nanosInSecond secondsInDay
  have hseconds : t.seconds / 86400 * 86400 +
      (↑(n / 3600) * 3600 + ↑(n / 60 % 60) * 60 + ↑(n % 60 + leap - leap)) = t.seconds := by
    omega
  have hnanos : t.nanos - leap * 1000000000 + leap * 1000000000 = t.nanos := by omega
  rw [hseconds, hnanos]

end DiceBot.Time
