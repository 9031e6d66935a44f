import LogIntake.Calendar.Date
import LogIntake.Decimal.Binary64
import LogIntake.Toml.Text

/-! Values of a TOML document that are written without quotes: booleans, integers,
floating-point numbers, dates and times.
-/

namespace LogIntake.Toml

def splitGroups : List Char → List (List Char)
  | [] => [[]]
  | c :: rest =>
      match splitGroups rest with
      | group :: groups => if c = '_' then [] :: group :: groups else (c :: group) :: groups
      | [] => [[c]]

/-- The digits of a number, which underscores may separate; each underscore stands between two
digits.
-/
def digits? (isDigit : Char → Bool) (source : List Char) : Option (List Char) :=
  let groups := splitGroups source
  if groups.all fun group => !group.isEmpty && group.all isDigit then some groups.flatten
  else none

def valueOf (base : Nat) (digits : List Char) : Nat :=
  digits.foldl (fun value c => value * base + (hexDigit? c).getD 0) 0

/-- The digits of a decimal number without superfluous zeros at the front. -/
def decimalDigits? (source : List Char) : Option (List Char) :=
  match digits? Char.isDigit source with
  | some ('0' :: _ :: _) => none
  | result => result

def takeSign : List Char → Bool × List Char
  | '-' :: rest => (true, rest)
  | '+' :: rest => (false, rest)
  | source => (false, source)

/-- An integer in decimal, hexadecimal, octal or binary notation; only decimal ones may have a
sign.
-/
def integer? (source : List Char) : Option Int :=
  match source with
  | '0' :: 'x' :: rest =>
      (digits? (fun c => (hexDigit? c).isSome) rest).map fun digits => valueOf 16 digits
  | '0' :: 'o' :: rest =>
      (digits? (fun c => '0' ≤ c && c ≤ '7') rest).map fun digits => valueOf 8 digits
  | '0' :: 'b' :: rest =>
      (digits? (fun c => c = '0' || c = '1') rest).map fun digits => valueOf 2 digits
  | _ =>
      let (negative, rest) := takeSign source
      (decimalDigits? rest).map fun digits =>
        if negative then -(valueOf 10 digits : Int) else valueOf 10 digits

/-- Whether an integer is within range: it fits into 128 bits, with or without a sign. -/
def isInRange (n : Int) : Bool :=
  -(Nat.pow 2 127 : Int) ≤ n && n < Nat.pow 2 128

/-- Whether digits times a power of ten are less than the greatest binary fraction. -/
def isFiniteFraction (digits : List Char) (exponent : Int) : Bool :=
  let value := valueOf 10 digits
  if value = 0 || (digits.length : Int) + exponent < 300 then true
  else if 400 < (digits.length : Int) + exponent then false
  else
    let scale := Nat.pow 10 exponent.natAbs
    let (num, den) := if 0 ≤ exponent then (value * scale, 1) else (value, scale)
    (Binary64.ofRatio? false num den).isSome

/-- The exponent of a floating-point number, zero if it has none; the first part is the text
before it.
-/
def takeExponent? (source : List Char) : Option (List Char × Option Int) :=
  let mantissa := source.takeWhile fun c => c ≠ 'e' && c ≠ 'E'
  match source.drop mantissa.length with
  | [] => some (mantissa, none)
  | _ :: rest =>
      let (negative, rest) := takeSign rest
      (digits? Char.isDigit rest).map fun digits =>
        let size : Int := valueOf 10 digits
        (mantissa, some (if negative then -size else size))

/-- A floating-point number: whole digits with a fraction, an exponent or both, or a name for
no number or for infinity. The result tells whether it is within range.
-/
def float? (source : List Char) : Option Bool :=
  let (_, rest) := takeSign source
  if rest = ['i', 'n', 'f'] || rest = ['n', 'a', 'n'] then some true
  else
    (takeExponent? rest).bind fun (mantissa, exponent) =>
      let whole := mantissa.takeWhile (· ≠ '.')
      match decimalDigits? whole, mantissa.drop whole.length, exponent with
      | some digits, [], some exponent => some (isFiniteFraction digits exponent)
      | some digits, _ :: fraction, exponent =>
          (digits? Char.isDigit fraction).map fun places =>
            isFiniteFraction (digits ++ places) (exponent.getD 0 - places.length)
      | _, _, _ => none

/-- Takes a number of a given count of digits, in a range. -/
def takeField? (count low high : Nat) (source : List Char) : Option (Nat × List Char) :=
  let digits := source.take count
  let value := valueOf 10 digits
  if digits.length = count && digits.all Char.isDigit && low ≤ value && value ≤ high then
    some (value, source.drop count)
  else none

def takeChar? (mark : Char) : List Char → Option (List Char)
  | c :: rest => if c = mark then some rest else none
  | [] => none

def takeDate? (source : List Char) : Option (List Char) := do
  let (year, source) ← takeField? 4 0 9999 source
  let source ← takeChar? '-' source
  let (month, source) ← takeField? 2 1 12 source
  let source ← takeChar? '-' source
  let (day, source) ← takeField? 2 1 31 source
  if (Calendar.Date.mk year month day).isValid then some source else none

/-- Takes a time of day; the seconds and their fraction may be absent. -/
def takeTime? (source : List Char) : Option (List Char) := do
  let (_, source) ← takeField? 2 0 23 source
  let source ← takeChar? ':' source
  let (_, source) ← takeField? 2 0 59 source
  match source with
  | ':' :: rest =>
      let (_, rest) ← takeField? 2 0 60 rest
      match rest with
      | '.' :: rest =>
          let digits := rest.takeWhile Char.isDigit
          if digits.isEmpty then none else some (rest.drop digits.length)
      | _ => some rest
  | _ => some source

/-- Whether a text is an offset from universal time, or nothing. -/
def isOffset (source : List Char) : Bool :=
  match source with
  | [] => true
  | [c] => c = 'Z' || c = 'z'
  | c :: rest =>
      (c = '+' || c = '-')
        && ((takeField? 2 0 23 rest).bind fun (_, rest) =>
              (takeChar? ':' rest).bind (takeField? 2 0 59)).any fun (_, rest) => rest.isEmpty

/-- Whether a text is a date, a time of day or both. -/
def isDatetime (source : List Char) : Bool :=
  match takeDate? source with
  | some [] => true
  | some (mark :: rest) =>
      (mark = 'T' || mark = 't' || mark = ' ') && (takeTime? rest).any isOffset
  | none => (takeTime? source).any List.isEmpty

/-- Whether a character may occur in a value without quotes. -/
def isScalarChar (c : Char) : Bool :=
  c.isAlphanum || c = '_' || c = '-' || c = '+' || c = '.' || c = ':'

/-- The value that a text without quotes denotes. -/
def scalar (source : List Char) : Except Fault Toml :=
  if source = "true".toList then .ok (.boolean true)
  else if source = "false".toList then .ok (.boolean false)
  else
    match integer? source with
    | some n => if isInRange n then .ok (.integer n) else .error .numberOutOfRange
    | none =>
        match float? source with
        | some true => .ok (.float (String.ofList source))
        | some false => .error .numberOutOfRange
        | none =>
            if isDatetime source then .ok (.datetime (String.ofList source))
            else .error .invalidScalar

/-- Takes a value without quotes. A blank may stand between a date and a time of day. -/
def takeScalar : Scan Toml := fun source =>
  let first := source.takeWhile isScalarChar
  let rest := source.drop first.length
  match rest with
  | ' ' :: after =>
      let second := after.takeWhile isScalarChar
      if takeDate? first = some [] && second.head?.any Char.isDigit then do
        let value ← scalar (first ++ ' ' :: second)
        return (value, after.drop second.length)
      else do
        let value ← scalar first
        return (value, rest)
  | _ => do
      let value ← scalar first
      return (value, rest)

end LogIntake.Toml
