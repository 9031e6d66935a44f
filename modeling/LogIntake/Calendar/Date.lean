/-! Dates of the Gregorian calendar, extended to all years, and their numbers counted from
the first day of 1970.
-/

namespace LogIntake.Calendar

/-- A year, a month and a day; not every triple is the date of a day. -/
structure Date where
  year : Int
  month : Nat
  day : Nat
  deriving Repr, DecidableEq, Inhabited

def isLeapYear (year : Int) : Bool :=
  year % 4 = 0 && (year % 100 ≠ 0 || year % 400 = 0)

def monthLengths (year : Int) : List Nat :=
  [31, if isLeapYear year then 29 else 28, 31, 30, 31, 30, 31, 31, 30, 31, 30, 31]

/-- The number of days from the first day of the year zero to the first day of a year. -/
def daysBeforeYear (year : Int) : Int :=
  365 * year + (year + 3) / 4 - (year + 99) / 100 + (year + 399) / 400

/-- The number of days from the first day of the year zero to the first day of 1970. -/
def epochDay : Int :=
  719528

def Date.isValid (date : Date) : Bool :=
  1 ≤ date.month && date.month ≤ 12 && 1 ≤ date.day
    && date.day ≤ (monthLengths date.year).getD (date.month - 1) 0

def daysBeforeMonth (year : Int) (month : Nat) : Nat :=
  ((monthLengths year).take (month - 1)).foldl (· + ·) 0

def Date.dayNumber (date : Date) : Int :=
  daysBeforeYear date.year - epochDay + daysBeforeMonth date.year date.month
    + (date.day - 1 : Nat)

/-- The year of a day counted from the first day of the year zero. The mean length of a year
leads to the year or to a neighbour of it.
-/
def yearOf (days : Int) : Int :=
  let guess := days * 400 / 146097
  if days < daysBeforeYear guess then guess - 1
  else if days < daysBeforeYear (guess + 1) then guess
  else guess + 1

/-- Month and day of a day counted within its year, given the lengths of the months from a
month on.
-/
def monthAndDay (month : Nat) : List Nat → Nat → Nat × Nat
  | length :: rest, days =>
      if days < length then (month, days + 1) else monthAndDay (month + 1) rest (days - length)
  | [], days => (month, days + 1)

def Date.ofDayNumber (number : Int) : Date :=
  let days := number + epochDay
  let year := yearOf days
  let (month, day) := monthAndDay 1 (monthLengths year) (days - daysBeforeYear year).toNat
  ⟨year, month, day⟩

end LogIntake.Calendar
