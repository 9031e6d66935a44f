import LogIntake.Calendar.Date

/-! Instants and their text in coordinated universal time: a date, the time of day with the
fewest groups of three fraction digits that are exact, and the letter Z.
-/

namespace LogIntake.Calendar

/-- Seconds since the start of 1970, without leap seconds, and nanoseconds after that second.
A thousand million nanoseconds or more lie in the leap second that follows it.
-/
structure Instant where
  seconds : Int
  nanos : Nat
  deriving Repr, DecidableEq, Inhabited

def Instant.epoch : Instant :=
  ⟨0, 0⟩

def nanosPerSecond : Nat :=
  1000000000

def secondsPerDay : Nat :=
  86400

/-- The instant of a date and a time of day that is ahead of universal time by an offset in
seconds.
-/
def Instant.ofLocal (date : Date) (hour minute second nanos : Nat) (offset : Int)
    : Instant :=
  ⟨date.dayNumber * secondsPerDay + (hour * 3600 + minute * 60 + second : Nat) - offset, nanos⟩

/-- A number in decimal, filled up with zeros to a width. -/
def padded (width n : Nat) : List Char :=
  let digits := Nat.toDigits 10 n
  List.replicate (width - digits.length) '0' ++ digits

/-- The text of a year: four digits, and outside of these years a sign as well. -/
def yearText (year : Int) : List Char :=
  if 0 ≤ year ∧ year ≤ 9999 then padded 4 year.toNat
  else (if year < 0 then '-' else '+') :: padded 4 year.natAbs

/-- The text of a fraction of a second: none, three, six or nine digits after a point. -/
def fractionText (nanos : Nat) : List Char :=
  if nanos = 0 then []
  else if nanos % 1000000 = 0 then '.' :: padded 3 (nanos / 1000000)
  else if nanos % 1000 = 0 then '.' :: padded 6 (nanos / 1000)
  else '.' :: padded 9 nanos

def Instant.chars (instant : Instant) : List Char :=
  let date := Date.ofDayNumber (instant.seconds / secondsPerDay)
  let time := (instant.seconds % secondsPerDay).toNat
  let leap := nanosPerSecond ≤ instant.nanos
  let second := time % 60 + if leap then 1 else 0
  let nanos := instant.nanos - if leap then nanosPerSecond else 0
  yearText date.year ++ '-' :: padded 2 date.month ++ '-' :: padded 2 date.day
    ++ 'T' :: padded 2 (time / 3600) ++ ':' :: padded 2 (time / 60 % 60)
    ++ ':' :: padded 2 second ++ fractionText nanos ++ ['Z']

def Instant.text (instant : Instant) : String :=
  String.ofList instant.chars

end LogIntake.Calendar
