import LogIntake.Proofs.Calendar.DayNumbers
import Mathlib.Logic.Function.Iterate
import Mathlib.Tactic.IntervalCases

/-! Days counted one by one. The calendar tells which dates exist and which of them comes after
which; counted in this way from the first day of 1970, every day has the number that is computed for
it.
-/

namespace LogIntake.Calendar

-----------------------------------------------------------------------------------------
-- The calendar
-----------------------------------------------------------------------------------------

/-- The dates of the Gregorian calendar, extended to all years. -/
inductive Date.Exists : Date → Prop
  | long {year month day} (isLong : month ∈ [1, 3, 5, 7, 8, 10, 12]) (least : 1 ≤ day)
    (most : day ≤ 31)
    : Exists ⟨year, month, day⟩
  | short {year month day} (isShort : month ∈ [4, 6, 9, 11]) (least : 1 ≤ day) (most : day ≤ 30)
    : Exists ⟨year, month, day⟩
  | february {year day} (least : 1 ≤ day) (most : day ≤ 28) : Exists ⟨year, 2, day⟩
  | leapDay {year} (fourth : year % 4 = 0) (century : year % 100 = 0 → year % 400 = 0)
    : Exists ⟨year, 2, 29⟩

theorem isLeapYear_iff {year : Int}
    : isLeapYear year = true ↔ year % 4 = 0 ∧ (year % 100 = 0 → year % 400 = 0) := by
  simp only [isLeapYear, Bool.and_eq_true, Bool.or_eq_true, decide_eq_true_eq, ne_eq]
  exact and_congr_right fun _ => imp_iff_not_or.symm

/-- The check for dates decides which dates exist, by cases on the month. -/
theorem Date.isValid_iff_exists {date : Date} : date.isValid = true ↔ date.Exists := by
  constructor
  · obtain ⟨year, month, day⟩ := date
    intro valid
    simp only [isValid, Bool.and_eq_true, decide_eq_true_eq] at valid
    obtain ⟨⟨⟨first, last⟩, least⟩, most⟩ := valid
    interval_cases month
    case «1» | «3» | «5» | «7» | «8» | «10» | «12» => exact .long (by decide) least most
    case «4» | «6» | «9» | «11» => exact .short (by decide) least most
    case «2» =>
      change day ≤ if isLeapYear year then 29 else 28 at most
      split at most
      case isFalse => exact .february least most
      case isTrue leap =>
        rcases Nat.lt_or_eq_of_le most with common | rfl
        · exact .february least (Nat.le_of_lt_succ common)
        · obtain ⟨fourth, century⟩ := isLeapYear_iff.mp leap
          exact .leapDay fourth century
  · intro present
    cases present with
    | long isLong least most =>
        simp only [List.mem_cons, List.not_mem_nil, or_false] at isLong
        rcases isLong with rfl | rfl | rfl | rfl | rfl | rfl | rfl <;>
          simp [isValid, monthLengths, least, most]
    | short isShort least most =>
        simp only [List.mem_cons, List.not_mem_nil, or_false] at isShort
        rcases isShort with rfl | rfl | rfl | rfl <;> simp [isValid, monthLengths, least, most]
    | february least most =>
        have within : ∀ leap : Bool, 28 ≤ if leap then 29 else 28 := by decide
        simp [isValid, monthLengths, least, Nat.le_trans most (within _)]
    | leapDay fourth century =>
        simp [isValid, monthLengths, isLeapYear_iff.mpr ⟨fourth, century⟩]

instance (date : Date) : Decidable date.Exists :=
  decidable_of_iff _ Date.isValid_iff_exists

/-- The date of the day after that of a date. -/
def Date.next (date : Date) : Date :=
  if Exists ⟨date.year, date.month, date.day + 1⟩ then ⟨date.year, date.month, date.day + 1⟩
  else if date.month < 12 then ⟨date.year, date.month + 1, 1⟩
  else ⟨date.year + 1, 1, 1⟩

/-- The number of days from the first day of 1970 to a date, counted day by day; before that day it
is negative.
-/
def Date.IsDay (date : Date) (days : Int) : Prop :=
  ∃ n : Nat,
    days = n ∧ Date.next^[n] ⟨1970, 1, 1⟩ = date ∨ days = -n ∧ Date.next^[n] date = ⟨1970, 1, 1⟩

-----------------------------------------------------------------------------------------
-- Counting and computing
-----------------------------------------------------------------------------------------

/-- A date that exists is a day of a month, given by its place in the year. -/
theorem Date.exists_month {date : Date} (present : date.Exists)
    : ∃ index length,
        date.month = 1 + index
        ∧ (monthLengths date.year)[index]? = some length
        ∧ 1 ≤ date.day
        ∧ date.day ≤ length := by
  have valid := isValid_iff_exists.mpr present
  simp only [isValid, Bool.and_eq_true, decide_eq_true_eq] at valid
  obtain ⟨⟨⟨first, last⟩, least⟩, most⟩ := valid
  have isMonth : date.month - 1 < (monthLengths date.year).length :=
    show date.month - 1 < 12 by omega
  rw [List.getD_eq_getElem?_getD, List.getElem?_eq_getElem isMonth, Option.getD_some] at most
  exact ⟨date.month - 1, _, by omega, List.getElem?_eq_getElem isMonth, least, most⟩

theorem Date.exists_of_month {year : Int} {index length day : Nat}
    (found : (monthLengths year)[index]? = some length) (least : 1 ≤ day) (most : day ≤ length)
    : Exists ⟨year, 1 + index, day⟩ :=
  isValid_iff_exists.mp (isValid_of_month found least most)

theorem le_of_mem_monthLengths {year : Int} {length : Nat} (member : length ∈ monthLengths year)
    : 28 ≤ length := by
  have long : ∀ length ∈ monthLengths year, 28 ≤ length := by
    cases leap : isLeapYear year <;> simp [monthLengths, leap]
  exact long length member

theorem sum_take_succ_monthLengths {year : Int} {index length : Nat}
    (found : (monthLengths year)[index]? = some length)
    : ((monthLengths year).take (index + 1)).sum = ((monthLengths year).take index).sum + length := by
  rw [List.take_add_one, found, Option.toList_some, List.sum_append, List.sum_singleton]

/-- The next date exists, and its number is the next one. -/
theorem Date.next_spec {date : Date} (present : date.Exists)
    : date.next.Exists ∧ date.next.dayNumber = date.dayNumber + 1 := by
  obtain ⟨index, length, month, found, least, most⟩ := exists_month present
  obtain ⟨year, month', day⟩ := date
  dsimp only at month found least most
  subst month
  have isMonth : index < 12 := (List.getElem?_eq_some_iff.mp found).1
  have sum := sum_take_succ_monthLengths found
  unfold next
  dsimp only
  split_ifs with same within
  · refine ⟨same, ?_⟩
    rw [dayNumber_of_month, dayNumber_of_month]
    omega
  -- The day is the last one of its month.
  all_goals
    have lastDay : day = length := by
      by_contra before
      exact same (exists_of_month found (by omega) (by omega))
  · have nextMonth : index + 1 < (monthLengths year).length := show index + 1 < 12 by omega
    have long := le_of_mem_monthLengths (List.getElem_mem nextMonth)
    rw [Nat.add_assoc]
    refine ⟨exists_of_month (List.getElem?_eq_getElem nextMonth) (Nat.le_refl 1) (by omega), ?_⟩
    rw [dayNumber_of_month, dayNumber_of_month, sum]
    omega
  · obtain rfl : index = 11 := by omega
    have year' := sum_monthLengths year
    have whole : (monthLengths year).take (11 + 1) = monthLengths year := rfl
    rw [whole] at sum
    refine ⟨.long (by decide) (Nat.le_refl 1) (by decide), ?_⟩
    have first := dayNumber_of_month (year + 1) 0 1
    rw [show (1 + 0 : Nat) = 1 from rfl] at first
    rw [first, dayNumber_of_month, List.take_zero, List.sum_nil]
    omega

theorem Date.iterate_next_spec {date : Date} (present : date.Exists) (n : Nat)
    : (next^[n] date).Exists ∧ (next^[n] date).dayNumber = date.dayNumber + n := by
  induction n with
  | zero => exact ⟨present, by simp⟩
  | succ n ih =>
      obtain ⟨exists', number⟩ := next_spec ih.1
      rw [Function.iterate_succ_apply']
      refine ⟨exists', ?_⟩
      rw [number, ih.2]
      omega

/-- A day within some months is found in its month, by induction on the months. -/
theorem monthAndDay_sum_take (first : Nat) {lengths : List Nat} {index length day : Nat}
    (found : lengths[index]? = some length) (least : 1 ≤ day) (most : day ≤ length)
    : monthAndDay first lengths ((lengths.take index).sum + (day - 1)) = (first + index, day) := by
  induction lengths generalizing first index with
  | nil => cases found
  | cons head lengths ih =>
      rw [monthAndDay]
      cases index with
      | zero =>
          cases found
          rw [if_pos (by simp; omega)]
          simp
          omega
      | succ index =>
          rw [List.take_succ_cons, List.sum_cons, if_neg (by omega)]
          have behind
              : head + (lengths.take index).sum + (day - 1) - head
                = (lengths.take index).sum + (day - 1) := by
            omega
          rw [behind, ih (first + 1) found, Nat.add_right_comm, Nat.add_assoc]

/-- The date of a number is found again. -/
theorem Date.ofDayNumber_dayNumber {date : Date} (present : date.Exists)
    : ofDayNumber date.dayNumber = date := by
  obtain ⟨index, length, month, found, least, most⟩ := exists_month present
  obtain ⟨started, notEnded⟩ := dayNumber_bounds (isValid_iff_exists.mpr present)
  obtain ⟨year, month', day⟩ := date
  dsimp only at month found least most
  subst month
  obtain ⟨from', until'⟩ := year_ofDayNumber_bounds started notEnded
  have sameYear : yearOf (Date.dayNumber ⟨year, 1 + index, day⟩ + epochDay) = year :=
    Int.le_antisymm until' from'
  have inYear
      : (Date.dayNumber ⟨year, 1 + index, day⟩ + epochDay - daysBeforeYear year).toNat
        = ((monthLengths year).take index).sum + (day - 1) := by
    rw [dayNumber_of_month]
    omega
  unfold ofDayNumber
  dsimp only
  rw [sameYear, inYear, monthAndDay_sum_take 1 found least most]

/-- Different dates have different numbers. -/
theorem Date.eq_of_dayNumber_eq {date other : Date} (present : date.Exists)
    (otherPresent : other.Exists) (same : date.dayNumber = other.dayNumber)
    : date = other := by
  rw [← ofDayNumber_dayNumber present, same, ofDayNumber_dayNumber otherPresent]

/-- The number that is computed for a day is the one that counting gives, and no other one is. -/
theorem Date.isDay_iff {date : Date} (present : date.Exists) {days : Int}
    : date.IsDay days ↔ days = date.dayNumber := by
  have epoch : Exists ⟨1970, 1, 1⟩ := .long (by decide) (by decide) (by decide)
  have zero : dayNumber ⟨1970, 1, 1⟩ = 0 := by decide
  constructor
  · rintro ⟨n, ⟨rfl, reached⟩ | ⟨rfl, reached⟩⟩
    · have number := (iterate_next_spec epoch n).2
      rw [reached, zero] at number
      omega
    · have number := (iterate_next_spec present n).2
      rw [reached, zero] at number
      omega
  · rintro rfl
    refine ⟨date.dayNumber.natAbs, ?_⟩
    rcases Int.le_total 0 date.dayNumber with after | before
    · obtain ⟨exists', number⟩ := iterate_next_spec epoch date.dayNumber.natAbs
      exact .inl ⟨by omega, eq_of_dayNumber_eq exists' present (by omega)⟩
    · obtain ⟨exists', number⟩ := iterate_next_spec present date.dayNumber.natAbs
      exact .inr ⟨by omega, eq_of_dayNumber_eq exists' epoch (by omega)⟩

end LogIntake.Calendar
