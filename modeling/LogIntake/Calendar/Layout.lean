import LogIntake.Calendar.Instant

/-! The strict layout of timestamps in log entries: a date, the letter T, a time of day with
an optional fraction, and the letter Z or a signed offset of hours and minutes.
-/

namespace LogIntake.Calendar

/-- Why a text does not have the layout of a timestamp. -/
inductive LayoutError where
  | tooShort
  | unexpectedSeparator
  | expectedDigit
  | timeOutOfRange
  | missingFraction
  | expectedZone
  | offsetOutOfRange
  | dateOutOfRange
  deriving Repr, DecidableEq, Inhabited

def LayoutError.message : LayoutError → String
  | .tooShort => "too short for RFC3339 layout"
  | .unexpectedSeparator => "unexpected separator in RFC3339 layout"
  | .expectedDigit => "expected digit in RFC3339 layout"
  | .timeOutOfRange => "time of day out of range"
  | .missingFraction => "missing fractional second digits"
  | .expectedZone => "expected 'Z' or a numeric time zone offset"
  | .offsetOutOfRange => "time zone offset out of range"
  | .dateOutOfRange => "date out of range"

def isDigit (byte : UInt8) : Bool :=
  0x30 ≤ byte && byte ≤ 0x39

def digitValue (byte : UInt8) : Nat :=
  byte.toNat - 0x30

def number (digits : List UInt8) : Nat :=
  digits.foldl (fun value digit => value * 10 + digitValue digit) 0

/-- Reads a number all of whose places have to be digits. -/
def readNumber (digits : List UInt8) : Except LayoutError Nat :=
  if digits.all isDigit then .ok (number digits) else .error .expectedDigit

/-- The nanoseconds of fraction digits; digits after the ninth do not count. -/
def fractionNanos (digits : List UInt8) : Nat :=
  number (digits.take 9) * Nat.pow 10 (9 - digits.length)

/-- Reads the fraction of a second if there is one, giving the nanoseconds. -/
def readFraction (bytes : List UInt8) : Except LayoutError (Nat × List UInt8) :=
  match bytes with
  | [] => .ok (0, [])
  | mark :: rest =>
      if mark = 0x2E || mark = 0x2C then
        let digits := rest.takeWhile isDigit
        if digits.isEmpty then .error .missingFraction
        else .ok (fractionNanos digits, rest.dropWhile isDigit)
      else .ok (0, bytes)

/-- Reads the offset from universal time, in seconds. -/
def readZone : List UInt8 → Except LayoutError Int
  | [0x5A] => .ok 0
  | [sign, h1, h2, 0x3A, m1, m2] =>
      if sign = 0x2B || sign = 0x2D then do
        let hour ← readNumber [h1, h2]
        let minute ← readNumber [m1, m2]
        if 23 < hour || 59 < minute then throw .offsetOutOfRange
        let seconds := hour * 3600 + minute * 60
        return if sign = 0x2D then -(seconds : Int) else seconds
      else .error .expectedZone
  | _ => .error .expectedZone

/-- Reads a timestamp. -/
def readLayout : List UInt8 → Except LayoutError Instant
  | y1 :: y2 :: y3 :: y4 :: s1 :: o1 :: o2 :: s2 :: d1 :: d2 :: s3 :: h1 :: h2 :: s4 :: m1
      :: m2 :: s5 :: c1 :: c2 :: next :: rest => do
      if !(s1 = 0x2D && s2 = 0x2D && s3 = 0x54 && s4 = 0x3A && s5 = 0x3A) then
        throw .unexpectedSeparator
      let year ← readNumber [y1, y2, y3, y4]
      let month ← readNumber [o1, o2]
      let day ← readNumber [d1, d2]
      let hour ← readNumber [h1, h2]
      let minute ← readNumber [m1, m2]
      let second ← readNumber [c1, c2]
      if 23 < hour || 59 < minute || 59 < second then throw .timeOutOfRange
      let (nanos, rest) ← readFraction (next :: rest)
      let offset ← readZone rest
      let date : Date := ⟨year, month, day⟩
      if date.isValid then return .ofLocal date hour minute second nanos offset
      else throw .dateOutOfRange
  | _ => .error .tooShort

end LogIntake.Calendar
