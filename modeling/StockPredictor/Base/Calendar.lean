/-
Dates of the Gregorian calendar, of the years 1 to 9999: their day numbers, the day before and the
same day of the year before. A year back is 365 days, or 366 when there is a leap day in between.
-/
import Mathlib.Algebra.BigOperators.Intervals
import Mathlib.Algebra.Order.BigOperators.Group.Finset

namespace Base

open Finset
open scoped BigOperators

/-! ## Years and months -/

def LeapYear (year : ℕ) : Prop := year % 4 = 0 ∧ (year % 100 ≠ 0 ∨ year % 400 = 0)

instance : DecidablePred LeapYear := fun _ => instDecidableAnd

def daysInYear (year : ℕ) : ℕ := if LeapYear year then 366 else 365

def daysInMonth (year month : ℕ) : ℕ :=
  if month = 2 then if LeapYear year then 29 else 28
  else if month = 4 ∨ month = 6 ∨ month = 9 ∨ month = 11 then 30
  else 31

/-- The days of the years before. -/
def daysBeforeYear (year : ℕ) : ℕ := ∑ y ∈ Ico 1 year, daysInYear y

/-- The days of the months before in the same year. -/
def daysBeforeMonth (year month : ℕ) : ℕ := ∑ m ∈ Ico 1 month, daysInMonth year m

theorem daysBeforeYear_succ {year : ℕ} (h : 1 ≤ year) :
    daysBeforeYear (year + 1) = daysBeforeYear year + daysInYear year := sum_Ico_succ_top h _

theorem daysBeforeMonth_succ {month : ℕ} (year : ℕ) (h : 1 ≤ month) :
    daysBeforeMonth year (month + 1) = daysBeforeMonth year month + daysInMonth year month := sum_Ico_succ_top h _

theorem daysBeforeYear_mono {y y' : ℕ} (h : y ≤ y') : daysBeforeYear y ≤ daysBeforeYear y' :=
  sum_le_sum_of_subset (Ico_subset_Ico_right h)

theorem daysBeforeMonth_mono (year : ℕ) {m m' : ℕ} (h : m ≤ m') : daysBeforeMonth year m ≤ daysBeforeMonth year m' :=
  sum_le_sum_of_subset (Ico_subset_Ico_right h)

theorem not_leapYear_succ {year : ℕ} (h : LeapYear year) : ¬ LeapYear (year + 1) := by
  obtain ⟨h4, -⟩ := h
  rintro ⟨h4', -⟩
  omega

theorem daysInMonth_le (year month : ℕ) : daysInMonth year month ≤ 31 := by
  unfold daysInMonth
  split_ifs
  all_goals omega

theorem daysInMonth_eq (year month : ℕ) :
    daysInMonth year month = daysInMonth 1 month + if month = 2 ∧ LeapYear year then 1 else 0 := by
  have hone : ¬ LeapYear 1 := by decide
  unfold daysInMonth
  by_cases h2 : month = 2
  · by_cases hleap : LeapYear year
    · simp [h2, hleap, hone]
    · simp [h2, hleap, hone]
  · simp [h2]

/-- The months before: in a leap year one day more from March on. -/
theorem daysBeforeMonth_eq (year : ℕ) {month : ℕ} (h : 1 ≤ month) :
    daysBeforeMonth year month = daysBeforeMonth 1 month + if 2 < month ∧ LeapYear year then 1 else 0 := by
  induction month, h using Nat.le_induction with
  | base => simp [daysBeforeMonth]
  | succ month hm ih =>
    rw [daysBeforeMonth_succ year hm, daysBeforeMonth_succ 1 hm, ih, daysInMonth_eq year month]
    by_cases hleap : LeapYear year
    · simp only [hleap, and_true]
      split_ifs
      all_goals omega
    · simp [hleap]

/-- The months make up the year. -/
theorem daysBeforeMonth_thirteen (year : ℕ) : daysBeforeMonth year 13 = daysInYear year := by
  have hyear : daysBeforeMonth 1 13 = 365 := by decide
  rw [daysBeforeMonth_eq year (by omega), hyear, daysInYear]
  by_cases hleap : LeapYear year
  · simp [hleap]
  · simp [hleap]

/-! ## Dates -/

/-- A date. -/
@[ext]
structure Date where
  year : ℕ
  month : ℕ
  day : ℕ
  year_mem : 1 ≤ year ∧ year ≤ 9999
  month_mem : 1 ≤ month ∧ month ≤ 12
  day_mem : 1 ≤ day ∧ day ≤ daysInMonth year month
deriving DecidableEq

namespace Date

/-- The days from the first date to a date. -/
def dayNumber (d : Date) : ℕ := daysBeforeYear d.year + daysBeforeMonth d.year d.month + (d.day - 1)

/-- The days of the month that are over are days of the year. -/
theorem dayOfYear_lt (d : Date) : daysBeforeMonth d.year d.month + (d.day - 1) < daysInYear d.year := by
  have hmonth := daysBeforeMonth_succ d.year d.month_mem.1
  have hyear := daysBeforeMonth_mono d.year (Nat.succ_le_succ d.month_mem.2)
  have hday := d.day_mem
  rw [hmonth, daysBeforeMonth_thirteen] at hyear
  omega

theorem daysBeforeYear_le (d : Date) : daysBeforeYear d.year ≤ d.dayNumber := by
  unfold dayNumber
  omega

theorem dayNumber_lt (d : Date) : d.dayNumber < daysBeforeYear (d.year + 1) := by
  have h := d.dayOfYear_lt
  rw [daysBeforeYear_succ d.year_mem.1]
  unfold dayNumber
  omega

/-- A date is in no later year than a date that it is not after. -/
theorem year_le {d e : Date} (h : d.dayNumber ≤ e.dayNumber) : d.year ≤ e.year := by
  by_contra hlt
  have hmono := daysBeforeYear_mono (show e.year + 1 ≤ d.year by omega)
  have hd := d.daysBeforeYear_le
  have he := e.dayNumber_lt
  omega

/-! ## The day before -/

theorem mem_day_sub_one (d : Date) (h : 1 < d.day) : 1 ≤ d.day - 1 ∧ d.day - 1 ≤ daysInMonth d.year d.month := by
  have := d.day_mem
  omega

theorem mem_month_sub_one (d : Date) (h : 1 < d.month) : 1 ≤ d.month - 1 ∧ d.month - 1 ≤ 12 := by
  have := d.month_mem
  omega

/-- The last day of a month is a day of it. -/
theorem mem_last_day (year month : ℕ) :
    1 ≤ daysInMonth year month ∧ daysInMonth year month ≤ daysInMonth year month := by
  refine ⟨?_, le_rfl⟩
  unfold daysInMonth
  split_ifs
  all_goals omega

theorem mem_year_sub_one (d : Date) (h : 1 < d.year) : 1 ≤ d.year - 1 ∧ d.year - 1 ≤ 9999 := by
  have := d.year_mem
  omega

theorem december_mem : 1 ≤ 12 ∧ 12 ≤ 12 := by decide

/-- The day before, unless it is the first date. -/
def dayBefore (d : Date) : Option Date :=
  if hday : 1 < d.day then
    some ⟨d.year, d.month, d.day - 1, d.year_mem, d.month_mem, mem_day_sub_one d hday⟩
  else if hmonth : 1 < d.month then
    some ⟨d.year, d.month - 1, daysInMonth d.year (d.month - 1), d.year_mem, mem_month_sub_one d hmonth,
      mem_last_day _ _⟩
  else if hyear : 1 < d.year then
    some ⟨d.year - 1, 12, daysInMonth (d.year - 1) 12, mem_year_sub_one d hyear, december_mem, mem_last_day _ _⟩
  else none

/-- Its day number is one less. -/
theorem dayNumber_dayBefore {d e : Date} (h : d.dayBefore = some e) : e.dayNumber + 1 = d.dayNumber := by
  have hday := d.day_mem
  have hmonth := d.month_mem
  have hyear := d.year_mem
  unfold dayBefore at h
  split_ifs at h with h1 h2 h3
  · cases h
    unfold dayNumber
    dsimp only
    omega
  · cases h
    have hsucc := daysBeforeMonth_succ d.year (show 1 ≤ d.month - 1 by omega)
    have hlast := (mem_last_day d.year (d.month - 1)).1
    rw [show d.month - 1 + 1 = d.month by omega] at hsucc
    unfold dayNumber
    dsimp only
    omega
  · cases h
    have hsucc := daysBeforeYear_succ (show 1 ≤ d.year - 1 by omega)
    have hmonths := daysBeforeMonth_succ (d.year - 1) (show 1 ≤ 12 by decide)
    have hlast := (mem_last_day (d.year - 1) 12).1
    rw [show d.year - 1 + 1 = d.year by omega] at hsucc
    rw [daysBeforeMonth_thirteen] at hmonths
    have hfirst : d.dayNumber = daysBeforeYear d.year := by
      have hm : d.month = 1 := by omega
      have hd : d.day = 1 := by omega
      simp [dayNumber, hm, hd, daysBeforeMonth]
    rw [hfirst]
    unfold dayNumber
    dsimp only
    omega

/-! ## A year before -/

theorem mem_day_in_year (d : Date) (year : ℕ) :
    1 ≤ min d.day (daysInMonth year d.month) ∧ min d.day (daysInMonth year d.month) ≤ daysInMonth year d.month := by
  have hday := d.day_mem
  have hlast := (mem_last_day year d.month).1
  omega

/-- The same day of the year before, the last of February for a leap day; none in the first year. -/
def yearBefore (d : Date) : Option Date :=
  if hyear : 1 < d.year then
    some ⟨d.year - 1, d.month, min d.day (daysInMonth (d.year - 1) d.month), mem_year_sub_one d hyear, d.month_mem,
      mem_day_in_year d _⟩
  else none

/-- A year before is 365 days before, or 366: in the months up to February of the year after a leap
year, and from the leap day on. -/
theorem dayNumber_yearBefore {d e : Date} (h : d.yearBefore = some e) :
    d.dayNumber = e.dayNumber + 365 + if (LeapYear (d.year - 1) ∧ d.month ≤ 2) ∨
      (LeapYear d.year ∧ (2 < d.month ∨ d.month = 2 ∧ d.day = 29)) then 1 else 0 := by
  have hday := d.day_mem
  unfold yearBefore at h
  split_ifs at h with hyear
  cases h
  obtain ⟨y, hy⟩ : ∃ y, d.year = y + 1 := ⟨d.year - 1, by omega⟩
  have hdays := daysBeforeYear_succ (show 1 ≤ y by omega)
  have hmonths := daysBeforeMonth_eq d.year d.month_mem.1
  have hmonths' := daysBeforeMonth_eq y d.month_mem.1
  have hlast := daysInMonth_eq d.year d.month
  have hlast' := daysInMonth_eq y d.month
  have hfebruary : d.month = 2 → daysInMonth 1 d.month = 28 := by
    rintro hm
    rw [hm]
    decide
  unfold daysInYear at hdays
  unfold dayNumber
  dsimp only
  rw [hy] at hday hmonths hlast ⊢
  rw [Nat.add_sub_cancel, hmonths, hmonths', hdays]
  by_cases hleap : LeapYear y
  · have hnext := not_leapYear_succ hleap
    simp only [hleap, hnext, and_true, and_false, true_and, false_and, or_false, if_true, if_false] at *
    split_ifs at *
    all_goals omega
  · by_cases hnext : LeapYear (y + 1)
    · simp only [hleap, hnext, and_true, and_false, true_and, false_and, false_or, if_false] at *
      split_ifs at *
      all_goals omega
    · simp only [hleap, hnext, and_false, false_and, or_false, if_false] at *
      omega

/-! ## Leap days -/

/-- A leap day is after the first date and not after the second. -/
def LeapDayBetween (e d : Date) : Prop :=
  ∃ leap : Date, leap.month = 2 ∧ leap.day = 29 ∧ e.dayNumber < leap.dayNumber ∧ leap.dayNumber ≤ d.dayNumber

/-- From the leap day on, 59 days of the year are over. -/
theorem le_dayOfYear_iff (d : Date) :
    59 ≤ daysBeforeMonth d.year d.month + (d.day - 1) ↔ 2 < d.month ∨ d.month = 2 ∧ d.day = 29 := by
  have hday := d.day_mem
  have hmonth := d.month_mem
  have htwo : daysBeforeMonth d.year 2 = 31 := by simp [daysBeforeMonth, daysInMonth]
  have hthree : daysBeforeMonth d.year 3 = daysBeforeMonth d.year 2 + daysInMonth d.year 2 :=
    daysBeforeMonth_succ d.year (by decide)
  have hfebruary : daysInMonth d.year 2 = 28 ∨ daysInMonth d.year 2 = 29 := by
    rw [daysInMonth, if_pos rfl]
    split_ifs
    all_goals simp
  rw [htwo] at hthree
  rcases (show d.month = 1 ∨ d.month = 2 ∨ 3 ≤ d.month by omega) with h | h | h
  · have hone : daysBeforeMonth d.year 1 = 0 := by simp [daysBeforeMonth]
    have hjanuary : daysInMonth d.year 1 = 31 := by simp [daysInMonth]
    rw [h] at hday ⊢
    omega
  · rw [h] at hday ⊢
    omega
  · have hmono := daysBeforeMonth_mono d.year h
    omega

theorem leapYear_of_day {d : Date} (hm : d.month = 2) (hd : d.day = 29) : LeapYear d.year := by
  have hday := d.day_mem
  by_contra hleap
  rw [hm, daysInMonth, if_pos rfl, if_neg hleap] at hday
  omega

theorem exists_leapDay {year : ℕ} (hyear : 1 ≤ year ∧ year ≤ 9999) (hleap : LeapYear year) :
    ∃ leap : Date, leap.year = year ∧ leap.month = 2 ∧ leap.day = 29 :=
  ⟨⟨year, 2, 29, hyear, by decide, by simp [daysInMonth, hleap]⟩, rfl, rfl, rfl⟩

theorem dayNumber_leapDay {leap : Date} (hm : leap.month = 2) (hd : leap.day = 29) :
    leap.dayNumber = daysBeforeYear leap.year + 59 := by
  rw [dayNumber, hm, hd]
  simp [daysBeforeMonth, daysInMonth]

theorem leapDayBetween_iff {d e : Date} (h : d.yearBefore = some e) :
    LeapDayBetween e d ↔ (LeapYear (d.year - 1) ∧ d.month ≤ 2) ∨
      (LeapYear d.year ∧ (2 < d.month ∨ d.month = 2 ∧ d.day = 29)) := by
  have hd := d.le_dayOfYear_iff
  have he := e.le_dayOfYear_iff
  have hday := d.day_mem
  unfold yearBefore at h
  split_ifs at h with hyear
  obtain ⟨hey, hem, hed⟩ : e.year = d.year - 1 ∧ e.month = d.month ∧
      e.day = min d.day (daysInMonth e.year e.month) := by
    cases h
    exact ⟨rfl, rfl, rfl⟩
  have hbetween := daysBeforeYear_mono (show e.year + 1 ≤ d.year by omega)
  have hfirst := d.daysBeforeYear_le
  have hlast := e.dayNumber_lt
  constructor
  · rintro ⟨leap, hm, h29, hafter, hbefore⟩
    have hleap := leapYear_of_day hm h29
    have hle := year_le hafter.le
    have hle' := year_le hbefore
    rw [dayNumber_leapDay hm h29] at hafter hbefore
    unfold dayNumber at hafter hbefore
    rcases (show leap.year = e.year ∨ leap.year = d.year by omega) with hy | hy
    · rw [hy] at hleap hafter
      refine .inl ⟨hey ▸ hleap, ?_⟩
      omega
    · rw [hy] at hleap hbefore
      exact .inr ⟨hleap, hd.1 (by omega)⟩
  · rintro (⟨hleap, hm⟩ | ⟨hleap, hm⟩)
    · obtain ⟨leap, hy, hm2, h29⟩ := exists_leapDay e.year_mem (hey ▸ hleap)
      refine ⟨leap, hm2, h29, ?_, ?_⟩
      · have hnext : ¬ LeapYear d.year := by
          have := not_leapYear_succ hleap
          rwa [show d.year - 1 + 1 = d.year by omega] at this
        have hnot : ¬ (2 < e.month ∨ e.month = 2 ∧ e.day = 29) := by
          rintro (h2 | ⟨h2, h29⟩)
          · omega
          · rw [← hem, h2, daysInMonth, if_pos rfl, if_neg hnext] at hday
            omega
        rw [dayNumber_leapDay hm2 h29, hy]
        unfold dayNumber
        rw [← he] at hnot
        omega
      · have hleaplt := leap.dayNumber_lt
        rw [hy] at hleaplt
        omega
    · obtain ⟨leap, hy, hm2, h29⟩ := exists_leapDay d.year_mem hleap
      refine ⟨leap, hm2, h29, ?_, ?_⟩
      · rw [dayNumber_leapDay hm2 h29, hy]
        omega
      · rw [dayNumber_leapDay hm2 h29, hy]
        have := hd.2 hm
        unfold dayNumber
        omega

/-- A year before is 365 days before, or 366 when there is a leap day in between. -/
theorem dayNumber_of_yearBefore {d e : Date} (h : d.yearBefore = some e) :
    (LeapDayBetween e d → d.dayNumber = e.dayNumber + 366) ∧
      (¬ LeapDayBetween e d → d.dayNumber = e.dayNumber + 365) := by
  have hnumber := dayNumber_yearBefore h
  constructor
  · intro hleap
    rwa [if_pos ((leapDayBetween_iff h).1 hleap)] at hnumber
  · intro hleap
    rwa [if_neg fun hcase => hleap ((leapDayBetween_iff h).2 hcase)] at hnumber

end Date

end Base
