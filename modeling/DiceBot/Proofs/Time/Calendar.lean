import DiceBot.Time.Calendar

/-!
The calendar names every day by a date, and the date leads back to the day.
-/

namespace DiceBot.Time

/-- The day of an era on which a year of it starts. Years start in March. -/
def yearStart (y : Int) : Int := 365 * y + y / 4 - y / 100

/-- The year of an era that a day of it lies in. -/
def yearOfEra (d : Int) : Int := (d - d / 1460 + d / 36524 - d / 146096) / 365

theorem yearOfEra_succ (d : Int) : yearOfEra d ≤ yearOfEra (d + 1) := by
  unfold yearOfEra
  apply Int.ediv_le_ediv (by decide)
  omega

theorem yearOfEra_mono {d e : Int} (h : d ≤ e) : yearOfEra d ≤ yearOfEra e := by
  obtain ⟨n, rfl⟩ := Int.le.dest h
  clear h
  induction n with
  | zero => simp
  | succ n ih =>
    have hs := yearOfEra_succ (d + n)
    rw [Int.add_assoc] at hs
    exact Int.le_trans ih hs

theorem yearOfEra_range {d : Int} (h : 0 ≤ d) (h' : d < daysInEra) :
    0 ≤ yearOfEra d ∧ yearOfEra d < 400 := by
  unfold daysInEra at h'
  unfold yearOfEra
  omega

/-- The first day of a year and the day before it, for every year of an era. -/
theorem yearOfEra_yearStart {y : Int} (h : 0 ≤ y) (h' : y < 400) :
    yearOfEra (yearStart y) = y ∧ (0 < y → yearOfEra (yearStart y - 1) = y - 1) := by
  have hall : ∀ y < 400, yearOfEra (yearStart (y : Nat)) = y ∧
      (0 < (y : Int) → yearOfEra (yearStart y - 1) = y - 1) := by decide +kernel
  obtain ⟨n, rfl⟩ := Int.eq_ofNat_of_zero_le h
  exact hall n (by omega)

theorem yearStart_le {d : Int} (h : 0 ≤ d) (h' : d < daysInEra) : yearStart (yearOfEra d) ≤ d := by
  obtain ⟨hy, hy'⟩ := yearOfEra_range h h'
  by_cases h0 : yearOfEra d = 0
  · rw [h0]
    exact h
  · have hpos : 0 < yearOfEra d := by omega
    have hlast := (yearOfEra_yearStart hy hy').2 hpos
    apply Int.not_lt.mp
    intro hlt
    have hm : yearOfEra d ≤ yearOfEra (yearStart (yearOfEra d) - 1) := yearOfEra_mono (by omega)
    omega

/-- A year ends before the next one starts. The last year of an era has one more day. -/
theorem lt_yearStart {d : Int} (h : 0 ≤ d) (h' : d < daysInEra) :
    d < yearStart (yearOfEra d + 1) ∨ yearOfEra d = 399 := by
  obtain ⟨hy, hy'⟩ := yearOfEra_range h h'
  by_cases h399 : yearOfEra d = 399
  · exact .inr h399
  · have hfirst := (yearOfEra_yearStart (y := yearOfEra d + 1) (by omega) (by omega)).1
    left
    apply Int.not_le.mp
    intro hle
    have hm : yearOfEra (yearStart (yearOfEra d + 1)) ≤ yearOfEra d := yearOfEra_mono (by omega)
    omega

/-- The day of a year, from zero on. -/
def dayOfYear (d : Int) : Int := d - yearStart (yearOfEra d)

theorem dayOfYear_range {d : Int} (h : 0 ≤ d) (h' : d < daysInEra) :
    0 ≤ dayOfYear d ∧ dayOfYear d ≤ 365 := by
  have hs := yearStart_le h h'
  obtain ⟨hy, hy'⟩ := yearOfEra_range h h'
  have hl := lt_yearStart h h'
  unfold dayOfYear
  unfold yearStart at *
  unfold daysInEra at h'
  omega

/-- Only a year before the March of a leap year has a day 365. -/
theorem isLeapYear_of_dayOfYear {d : Int} (h : 0 ≤ d) (h' : d < daysInEra)
    (hd : dayOfYear d = 365) (era : Int) : isLeapYear (yearOfEra d + era * 400 + 1) = true := by
  obtain ⟨hy, hy'⟩ := yearOfEra_range h h'
  have hl := lt_yearStart h h'
  unfold dayOfYear at hd
  unfold yearStart at *
  simp only [isLeapYear, Bool.and_eq_true, Bool.or_eq_true, decide_eq_true_eq]
  omega

/-- The month of a day of the year, counted from March on, and the day of the month. -/
def monthFromMarch (k : Int) : Int := (5 * k + 2) / 153

def dayOfMonth (k : Int) : Int := k - (153 * monthFromMarch k + 2) / 5 + 1

def monthOf (k : Int) : Int :=
  if monthFromMarch k < 10 then monthFromMarch k + 3 else monthFromMarch k - 9

theorem monthFromMarch_monthOf {k : Int} (h : 0 ≤ k) (h' : k ≤ 365) :
    (monthOf k + 9) % 12 = monthFromMarch k := by
  unfold monthOf monthFromMarch
  split <;> omega

theorem daysInMonth_le (year month : Int) : daysInMonth 1 month ≤ daysInMonth year month := by
  have h1 : daysInMonth 1 2 = 28 := rfl
  by_cases hm : month = 2
  · subst hm
    rw [h1, daysInMonth, if_pos rfl]
    split <;> decide
  · simp only [daysInMonth, if_neg hm, Int.le_refl]

theorem monthOf_range {k : Int} (h : 0 ≤ k) (h' : k ≤ 365) :
    1 ≤ monthOf k ∧ monthOf k ≤ 12 := by
  unfold monthOf monthFromMarch
  split <;> omega

theorem dayOfMonth_range {k : Int} (h : 0 ≤ k) (h' : k ≤ 365) (year : Int)
    (hl : k = 365 → isLeapYear year = true) :
    1 ≤ dayOfMonth k ∧ dayOfMonth k ≤ daysInMonth year (monthOf k) := by
  have hall : ∀ k < 365, 1 ≤ dayOfMonth (k : Nat) ∧
      dayOfMonth (k : Nat) ≤ daysInMonth 1 (monthOf (k : Nat)) := by decide +kernel
  by_cases hk : k = 365
  · subst hk
    have h2 : monthOf 365 = 2 := rfl
    have h29 : daysInMonth year 2 = 29 := by rw [daysInMonth, if_pos rfl, if_pos (hl rfl)]
    rw [h2, h29]
    decide
  · obtain ⟨n, rfl⟩ := Int.eq_ofNat_of_zero_le h
    obtain ⟨hd, hd'⟩ := hall n (by omega)
    exact ⟨hd, Int.le_trans hd' (daysInMonth_le year _)⟩

namespace Date

/-- The day of the era and the era of a day. -/
theorem ofDayNumber_eq (n : Int) :
    let era := (n + epochDay) / daysInEra
    let d := (n + epochDay) % daysInEra
    ofDayNumber n = ⟨if monthOf (dayOfYear d) ≤ 2 then yearOfEra d + era * 400 + 1
      else yearOfEra d + era * 400, monthOf (dayOfYear d), dayOfMonth (dayOfYear d)⟩ := rfl

theorem isValid_ofDayNumber (n : Int) : (ofDayNumber n).isValid = true := by
  have h0 : 0 ≤ (n + epochDay) % daysInEra := Int.emod_nonneg _ (by decide)
  have h1 : (n + epochDay) % daysInEra < daysInEra := Int.emod_lt_of_pos _ (by decide)
  rw [ofDayNumber_eq]
  generalize (n + epochDay) / daysInEra = era
  generalize (n + epochDay) % daysInEra = d at *
  obtain ⟨hk, hk'⟩ := dayOfYear_range h0 h1
  obtain ⟨hm, hm'⟩ := monthOf_range hk hk'
  have hday := dayOfMonth_range hk hk'
    (if monthOf (dayOfYear d) ≤ 2 then yearOfEra d + era * 400 + 1 else yearOfEra d + era * 400) (by
      intro h365
      have hf : monthOf (dayOfYear d) ≤ 2 := by
        rw [h365]
        decide
      rw [if_pos hf]
      exact isLeapYear_of_dayOfYear h0 h1 h365 era)
  simp only [isValid, hm, hm', hday.1, hday.2, decide_true, Bool.and_self]

theorem dayNumber_ofDayNumber (n : Int) : (ofDayNumber n).dayNumber = n := by
  have h0 : 0 ≤ (n + epochDay) % daysInEra := Int.emod_nonneg _ (by decide)
  have h1 : (n + epochDay) % daysInEra < daysInEra := Int.emod_lt_of_pos _ (by decide)
  have hn := Int.mul_ediv_add_emod (n + epochDay) daysInEra
  rw [ofDayNumber_eq]
  generalize (n + epochDay) / daysInEra = era at *
  generalize (n + epochDay) % daysInEra = d at *
  obtain ⟨hk, hk'⟩ := dayOfYear_range h0 h1
  obtain ⟨hy, hy'⟩ := yearOfEra_range h0 h1
  have hyear : (if monthOf (dayOfYear d) ≤ 2 then
      (if monthOf (dayOfYear d) ≤ 2 then yearOfEra d + era * 400 + 1
        else yearOfEra d + era * 400) - 1
      else if monthOf (dayOfYear d) ≤ 2 then yearOfEra d + era * 400 + 1
        else yearOfEra d + era * 400) = yearOfEra d + era * 400 := by
    split <;> omega
  have hd : dayOfYear d + yearStart (yearOfEra d) = d := Int.sub_add_cancel _ _
  have he : (yearOfEra d + era * 400) / 400 = era := by omega
  have hm : (yearOfEra d + era * 400) % 400 = yearOfEra d := by omega
  simp only [dayNumber, hyear, he, hm, monthFromMarch_monthOf hk hk', dayOfMonth]
  unfold yearStart at hd
  unfold daysInEra at *
  omega

end Date
end DiceBot.Time
