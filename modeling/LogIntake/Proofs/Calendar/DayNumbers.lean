import LogIntake.Calendar.Date
import Mathlib.Algebra.BigOperators.Group.List.Basic
import Mathlib.Algebra.GroupWithZero.Nat
import Mathlib.Tactic.SplitIfs

/-! Dates against the numbers of their days. The date that belongs to a number exists, and the
number that belongs to it is the one it came from.
-/

namespace LogIntake.Calendar

-----------------------------------------------------------------------------------------
-- Years
-----------------------------------------------------------------------------------------

theorem daysBeforeYear_mono {first second : Int} (earlier : first ≤ second)
    : daysBeforeYear first ≤ daysBeforeYear second := by
  unfold daysBeforeYear
  omega

/-- The year of a day is the one that the day lies in. -/
theorem yearOf_bounds (days : Int)
    : daysBeforeYear (yearOf days) ≤ days ∧ days < daysBeforeYear (yearOf days + 1) := by
  unfold yearOf
  dsimp only
  split_ifs with before within
  case pos =>
    rw [Int.sub_add_cancel]
    unfold daysBeforeYear at *
    omega
  all_goals
    unfold daysBeforeYear at *
    omega

/-- The months of a year are as long as the year. -/
theorem sum_monthLengths (year : Int)
    : ((monthLengths year).sum : Int) = daysBeforeYear (year + 1) - daysBeforeYear year := by
  have february : (monthLengths year).sum = 337 + if isLeapYear year then 29 else 28 := by
    simp only [monthLengths, List.sum_cons, List.sum_nil]
    omega
  rw [february]
  simp only [isLeapYear, Bool.and_eq_true, Bool.or_eq_true, decide_eq_true_eq]
  unfold daysBeforeYear
  split_ifs with leap <;> omega

-----------------------------------------------------------------------------------------
-- Months and days
-----------------------------------------------------------------------------------------

/-- A day within some months lies in the month that the days of the months before it leave it in, by
induction on the months.
-/
theorem monthAndDay_spec (first : Nat) {lengths : List Nat} {days : Nat}
    (within : days < lengths.sum)
    : ∃ index length,
        (monthAndDay first lengths days).1 = first + index
        ∧ lengths[index]? = some length
        ∧ 1 ≤ (monthAndDay first lengths days).2
        ∧ (monthAndDay first lengths days).2 ≤ length
        ∧ (lengths.take index).sum + ((monthAndDay first lengths days).2 - 1) = days := by
  induction lengths generalizing first days with
  | nil => exact absurd within (Nat.not_lt_zero _)
  | cons head lengths ih =>
      rw [List.sum_cons] at within
      by_cases here : days < head
      · rw [monthAndDay, if_pos here]
        exact ⟨0, head, rfl, rfl, Nat.le_add_left .., here, by simp⟩
      · obtain ⟨index, length, month, found, least, most, sum⟩ :=
          ih (first + 1) (show days - head < lengths.sum by omega)
        rw [monthAndDay, if_neg here]
        refine ⟨index + 1, length, by omega, found, least, most, ?_⟩
        rw [List.take_succ_cons, List.sum_cons]
        omega

/-- A day up to the length of its month is the day of a date. -/
theorem isValid_of_month {year : Int} {index length day : Nat}
    (found : (monthLengths year)[index]? = some length) (least : 1 ≤ day) (most : day ≤ length)
    : Date.isValid ⟨year, 1 + index, day⟩ = true := by
  have isMonth : index < 12 := (List.getElem?_eq_some_iff.mp found).1
  have lengthFound : (monthLengths year).getD (1 + index - 1) 0 = length := by
    rw [Nat.add_sub_cancel_left, List.getD_eq_getElem?_getD, found, Option.getD_some]
  simp only [Date.isValid, lengthFound, Bool.and_eq_true, decide_eq_true_eq]
  omega

theorem dayNumber_of_month (year : Int) (index day : Nat)
    : Date.dayNumber ⟨year, 1 + index, day⟩
      = daysBeforeYear year - epochDay
        + (((monthLengths year).take index).sum + (day - 1) : Nat) := by
  rw [Date.dayNumber, daysBeforeMonth, Nat.add_sub_cancel_left, ← List.sum_eq_foldl, Int.add_assoc]
  rfl

/-- The date of a number is the date of a day, and that day has the number. -/
theorem ofDayNumber_spec (number : Int)
    : (Date.ofDayNumber number).isValid = true ∧ (Date.ofDayNumber number).dayNumber = number := by
  obtain ⟨started, notEnded⟩ := yearOf_bounds (number + epochDay)
  have sum := sum_monthLengths (yearOf (number + epochDay))
  unfold Date.ofDayNumber
  dsimp only
  generalize yearOf (number + epochDay) = year at *
  obtain ⟨index, length, month, found, least, most, days⟩ :=
    monthAndDay_spec 1 (show (number + epochDay - daysBeforeYear year).toNat
      < (monthLengths year).sum by omega)
  rw [month]
  refine ⟨isValid_of_month found least most, ?_⟩
  rw [dayNumber_of_month, days]
  omega

/-- The day of a date lies in the year of the date. -/
theorem dayNumber_bounds {date : Date} (valid : date.isValid = true)
    : daysBeforeYear date.year ≤ date.dayNumber + epochDay
      ∧ date.dayNumber + epochDay < daysBeforeYear (date.year + 1) := by
  obtain ⟨year, month, day⟩ := date
  simp only [Date.isValid, Bool.and_eq_true, decide_eq_true_eq] at valid
  obtain ⟨⟨⟨first, last⟩, least⟩, most⟩ := valid
  obtain ⟨index, rfl⟩ := Nat.exists_eq_add_of_le first
  have isMonth : index < (monthLengths year).length := show index < 12 by omega
  rw [Nat.add_sub_cancel_left, List.getD_eq_getElem?_getD, List.getElem?_eq_getElem isMonth,
    Option.getD_some] at most
  have parts := List.sum_take_add_sum_drop (monthLengths year) index
  rw [List.drop_eq_getElem_cons isMonth, List.sum_cons] at parts
  have whole := sum_monthLengths year
  rw [dayNumber_of_month]
  dsimp only
  omega

/-- The year of a date by its number lies between years that enclose the day. -/
theorem year_ofDayNumber_bounds {number first last : Int}
    (started : daysBeforeYear first ≤ number + epochDay)
    (notEnded : number + epochDay < daysBeforeYear (last + 1))
    : first ≤ (Date.ofDayNumber number).year ∧ (Date.ofDayNumber number).year ≤ last := by
  obtain ⟨least, most⟩ := yearOf_bounds (number + epochDay)
  have year : (Date.ofDayNumber number).year = yearOf (number + epochDay) := rfl
  rw [year]
  constructor
  · by_contra before
    have mono := daysBeforeYear_mono (show yearOf (number + epochDay) + 1 ≤ first by omega)
    omega
  · by_contra behind
    have mono := daysBeforeYear_mono (show last + 1 ≤ yearOf (number + epochDay) by omega)
    omega

end LogIntake.Calendar
