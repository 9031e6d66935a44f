import LogIntake.Calendar.Instant
import LogIntake.Unicode.Property

/-! The relaxed layout of timestamps in finished records: numbers may lack leading zeros,
blanks may stand between the parts, years may have a sign and any length, and the second
may be a leap second.
-/

namespace LogIntake.Calendar

open LogIntake.Unicode

/-- Why a text is no timestamp even in the relaxed layout. -/
inductive RelaxedError where
  | outOfRange
  | impossible
  | invalid
  | tooShort
  | tooLong
  deriving Repr, DecidableEq, Inhabited

/-- The wording of an error in the relaxed layout. -/
def RelaxedError.message : RelaxedError → String
  | .outOfRange => "input is out of range"
  | .impossible => "no possible date and time matching input"
  | .invalid => "input contains invalid characters"
  | .tooShort => "premature end of input"
  | .tooLong => "trailing input"

abbrev RelaxedReader (α : Type) :=
  List Char → Except RelaxedError (α × List Char)

def skipBlanks (text : List Char) : List Char :=
  text.dropWhile fun c => Property.whiteSpace.contains c.toNat

def digitsValue (digits : List Char) : Nat :=
  digits.foldl (fun value c => value * 10 + (c.toNat - '0'.toNat)) 0

def maxCounted : Nat :=
  Nat.pow 2 63 - 1

/-- Takes at most so many digits off the front, and at least one. -/
def takeDigits (limit : Option Nat) : RelaxedReader Nat := fun text =>
  match text with
  | [] => .error .tooShort
  | _ :: _ =>
      let run := text.takeWhile Char.isDigit
      let digits := (limit.map run.take).getD run
      if digits.isEmpty then .error .invalid
      else if maxCounted < digitsValue digits then .error .outOfRange
      else .ok (digitsValue digits, text.drop digits.length)

/-- Takes a number of one or two digits that lies in a range. -/
def takeBounded (low high : Nat) : RelaxedReader Nat := fun text => do
  let (n, rest) ← takeDigits (some 2) (skipBlanks text)
  if low ≤ n ∧ n ≤ high then return (n, rest) else throw .outOfRange

/-- Takes a year: up to four digits, or a sign and any number of digits. -/
def takeYear : RelaxedReader Int := fun text => do
  let (year, rest) ←
    match skipBlanks text with
    | '-' :: rest => do
        let (n, rest) ← takeDigits none rest
        pure (-(n : Int), rest)
    | '+' :: rest => do
        let (n, rest) ← takeDigits none rest
        pure ((n : Int), rest)
    | rest => do
        let (n, rest) ← takeDigits (some 4) rest
        pure ((n : Int), rest)
  if -(Nat.pow 2 31 : Int) ≤ year ∧ year < Nat.pow 2 31 then return (year, rest)
  else throw .outOfRange

/-- Takes a mark between two numbers, with blanks before it. -/
def takeMark (mark : Char) (text : List Char) : Except RelaxedError (List Char) :=
  match skipBlanks text with
  | [] => .error .tooShort
  | c :: rest => if c = mark then .ok rest else .error .invalid

def takeTimeMark : List Char → Except RelaxedError (List Char)
  | [] => .error .tooShort
  | c :: rest => if c = 't' || c = 'T' || c = ' ' then .ok rest else .error .invalid

/-- Takes a fraction of a second if there is one, giving the nanoseconds. -/
def takeFraction : RelaxedReader Nat := fun text =>
  match text with
  | '.' :: rest => do
      let (n, after) ← takeDigits (some 9) rest
      let missing := 9 - (rest.length - after.length)
      return (n * Nat.pow 10 missing, after.dropWhile Char.isDigit)
  | _ => .ok (0, text)

/-- Takes the sign of an offset; true is the minus sign in either of its forms. -/
def takeSign : RelaxedReader Bool := fun text =>
  match text with
  | [] => .error .tooShort
  | c :: rest =>
      if c = '+' then .ok (false, rest)
      else if c = '-' || c.toNat = 0x2212 then .ok (true, rest)
      else .error .invalid

def byteCount (text : List Char) : Nat :=
  text.foldl (fun count c => count + c.utf8Size) 0

def takeOffsetHours : RelaxedReader Nat := fun text =>
  if byteCount text < 2 then .error .tooShort
  else
    match text with
    | a :: b :: rest =>
        if a.isDigit && b.isDigit then .ok (digitsValue [a, b], rest) else .error .invalid
    | _ => .error .invalid

/-- Takes the minutes of an offset: two digits, the first of them below six. -/
def takeOffsetMinutes : RelaxedReader Nat := fun text => do
  let (n, rest) ← takeOffsetHours text
  if n < 60 then return (n, rest) else throw .outOfRange

/-- Takes the offset from universal time, in seconds. -/
def takeOffset : RelaxedReader Int := fun text =>
  match text with
  | first :: second :: third :: rest =>
      if first.toUpper = 'U' && second.toUpper = 'T' && third.toUpper = 'C' then .ok (0, rest)
      else signed text
  | _ => signed text
where
  /-- An offset that is not spelled by the name of universal time. -/
  signed (text : List Char) : Except RelaxedError (Int × List Char) :=
    match text with
    | 'Z' :: rest => .ok (0, rest)
    | 'z' :: rest => .ok (0, rest)
    | _ => do
        let (negative, rest) ← takeSign text
        let (hours, rest) ← takeOffsetHours rest
        let rest := rest.dropWhile fun c => c = ':' || Property.whiteSpace.contains c.toNat
        let (minutes, rest) ← takeOffsetMinutes rest
        let seconds := hours * 3600 + minutes * 60
        return (if negative then -(seconds : Int) else seconds, rest)

def yearBounds : Int × Int :=
  (-262143, 262142)

/-- Whether a date exists and lies in the years that are counted. -/
def Date.isCounted (date : Date) : Bool :=
  date.isValid && yearBounds.1 ≤ date.year && date.year ≤ yearBounds.2

/-- Reads a timestamp. -/
def readRelaxed (text : List Char) : Except RelaxedError Instant := do
  let (year, rest) ← takeYear text
  let rest ← takeMark '-' rest
  let (month, rest) ← takeBounded 1 12 rest
  let rest ← takeMark '-' rest
  let (day, rest) ← takeBounded 1 31 rest
  let rest ← takeTimeMark rest
  let (hour, rest) ← takeBounded 0 23 rest
  let rest ← takeMark ':' rest
  let (minute, rest) ← takeBounded 0 59 rest
  let rest ← takeMark ':' rest
  let (second, rest) ← takeBounded 0 60 rest
  let (nanos, rest) ← takeFraction rest
  let (offset, rest) ← takeOffset (skipBlanks rest)
  if !(skipBlanks rest).isEmpty then throw .tooLong
  let date : Date := ⟨year, month, day⟩
  if !date.isCounted then throw .outOfRange
  if secondsPerDay ≤ offset.natAbs then throw .outOfRange
  let leap := second = 60
  let instant := Instant.ofLocal date hour minute (if leap then 59 else second)
    (nanos + if leap then nanosPerSecond else 0) offset
  if (Date.ofDayNumber (instant.seconds / secondsPerDay)).isCounted then return instant
  else throw .impossible

end LogIntake.Calendar
