import LogIntake.Json.Lexeme

/-! Numbers of a JSON document. Whole numbers stay whole while they fit a word of 64 bits;
other numbers become binary fractions: their leading digits as one integer, scaled by powers
of ten with one rounding for each step.
-/

namespace LogIntake.Json

def isDigit (byte : UInt8) : Bool :=
  byteOf '0' ≤ byte && byte ≤ byteOf '9'

def digitValue (byte : UInt8) : Nat :=
  byte.toNat - 0x30

def maxWord : Nat :=
  Nat.pow 2 64 - 1

/-- The greatest decimal exponent that is counted. -/
def maxExponent : Nat :=
  Nat.pow 2 31 - 1

def atExponent : List UInt8 → Bool
  | byte :: _ => byte = byteOf 'e' || byte = byteOf 'E'
  | [] => false

/-- Divides by the greatest table power until the exponent is in the table. Zero stops
early; the first argument bounds the number of divisions.
-/
def shrink : Nat → Binary64 → Nat → Binary64
  | 0, x, _ => x
  | fuel + 1, x, exponent =>
      if exponent ≤ 308 then
        ((Binary64.ofNat? (Nat.pow 10 exponent)).bind x.div?).getD x
      else if x.significand = 0 then x
      else shrink fuel (((Binary64.ofNat? (Nat.pow 10 308)).bind x.div?).getD x) (exponent - 308)

/-- A number from its digits, as one integer, and a decimal exponent. Digits and power are
rounded first and then their product or quotient.
-/
def scale (negative : Bool) (digits : Nat) (exponent : Int) : Except FormError Binary64 :=
  let start := (Binary64.ofNat? digits).getD default
  let signed := fun x : Binary64 => if negative then x.neg else x
  match exponent with
  | .ofNat e =>
      if start.significand = 0 then .ok (signed start)
      else if e ≤ 308 then
        match (Binary64.ofNat? (Nat.pow 10 e)).bind start.mul? with
        | some x => .ok (signed x)
        | none => .error .numberOutOfRange
      else .error .numberOutOfRange
  | .negSucc e => .ok (signed (shrink 8 start (e + 1)))

/-- Reads the digits of an exponent after the first one. The result is none when the
exponent grows too large to count.
-/
def readExponentDigits (value : Nat) : List UInt8 → Option Nat × List UInt8
  | [] => (some value, [])
  | byte :: rest =>
      if isDigit byte then
        let next := value * 10 + digitValue byte
        if maxExponent < next then (none, rest.dropWhile isDigit)
        else readExponentDigits next rest
      else (some value, byte :: rest)

/-- Reads an exponent after its letter and scales the digits before it. -/
def readExponent (negative : Bool) (digits : Nat) (exponent : Int) (bytes : List UInt8)
    : Except FormError (Binary64 × List UInt8) :=
  let (down, bytes) :=
    match bytes with
    | byte :: rest =>
        if byte = byteOf '+' then (false, rest)
        else if byte = byteOf '-' then (true, rest)
        else (false, bytes)
    | [] => (false, bytes)
  match bytes with
  | [] => .error .endInValue
  | byte :: rest =>
      if isDigit byte then
        match readExponentDigits (digitValue byte) rest with
        | (some size, rest) => do
            let x ← scale negative digits (if down then exponent - size else exponent + size)
            return (x, rest)
        | (none, rest) =>
            if digits ≠ 0 && !down then .error .numberOutOfRange
            else .ok (⟨negative, 0, Binary64.minExponent⟩, rest)
      else .error .invalidNumber

/-- Scales digits after which an exponent may follow. -/
def finishFraction (negative : Bool) (digits : Nat) (exponent : Int) (bytes : List UInt8)
    : Except FormError (Binary64 × List UInt8) :=
  match bytes with
  | byte :: rest =>
      if byte = byteOf 'e' || byte = byteOf 'E' then
        readExponent negative digits exponent rest
      else do
        let x ← scale negative digits exponent
        return (x, bytes)
  | [] => do
      let x ← scale negative digits exponent
      return (x, [])

/-- Collects the digits of a fraction while they fit a word; the rest of them is dropped. The
result counts the digits that were collected.
-/
def readFractionDigits (digits count : Nat) : List UInt8 → Nat × Nat × List UInt8
  | [] => (digits, count, [])
  | byte :: rest =>
      if isDigit byte then
        let next := digits * 10 + digitValue byte
        if maxWord < next then (digits, count, rest.dropWhile isDigit)
        else readFractionDigits next (count + 1) rest
      else (digits, count, byte :: rest)

def readFraction (negative : Bool) (digits : Nat) (exponent : Int) (bytes : List UInt8)
    : Except FormError (Binary64 × List UInt8) :=
  match bytes with
  | [] => .error .endInValue
  | byte :: _ =>
      if isDigit byte then
        let (digits, count, rest) := readFractionDigits digits 0 bytes
        finishFraction negative digits (exponent - count) rest
      else .error .invalidNumber

/-- Collects the digits of a whole part while they fit a word. The result tells how many
further digits there were.
-/
def readWholeDigits (digits : Nat) : List UInt8 → Nat × Nat × List UInt8
  | [] => (digits, 0, [])
  | byte :: rest =>
      if isDigit byte then
        let next := digits * 10 + digitValue byte
        if maxWord < next then
          let further := (byte :: rest).takeWhile isDigit
          (digits, further.length, (byte :: rest).drop further.length)
        else readWholeDigits next rest
      else (digits, 0, byte :: rest)

/-- A whole number, or a fraction if it does not fit. Minus zero is a fraction. -/
def wholeNumber (negative : Bool) (digits : Nat) : Number :=
  if !negative then .natural digits
  else if digits = 0 || Nat.pow 2 63 < digits then
    .fraction (((Binary64.ofNat? digits).getD default).neg)
  else .negative digits

/-- Reads what follows the digits of the whole part. -/
def readAfterWhole (negative : Bool) (digits further : Nat) (bytes : List UInt8)
    : Except FormError (Number × List UInt8) :=
  match bytes with
  | byte :: rest =>
      if byte = byteOf '.' then do
        let (x, rest) ← readFraction negative digits further rest
        return (.fraction x, rest)
      else if atExponent bytes || further ≠ 0 then do
        let (x, rest) ← finishFraction negative digits further bytes
        return (.fraction x, rest)
      else .ok (wholeNumber negative digits, bytes)
  | [] =>
      if further ≠ 0 then do
        let (x, rest) ← finishFraction negative digits further bytes
        return (.fraction x, rest)
      else .ok (wholeNumber negative digits, bytes)

def readUnsigned (negative : Bool) (bytes : List UInt8)
    : Except FormError (Number × List UInt8) :=
  match bytes with
  | [] => .error .endInValue
  | byte :: rest =>
      if byte = byteOf '0' then
        match rest with
        | next :: _ =>
            if isDigit next then .error .invalidNumber else readAfterWhole negative 0 0 rest
        | [] => readAfterWhole negative 0 0 rest
      else if isDigit byte then
        let (digits, further, rest) := readWholeDigits 0 bytes
        readAfterWhole negative digits further rest
      else .error .invalidNumber

def skipExponent (bytes : List UInt8) : Except FormError (List UInt8) :=
  let bytes :=
    match bytes with
    | byte :: rest => if byte = byteOf '+' || byte = byteOf '-' then rest else bytes
    | [] => bytes
  match bytes with
  | byte :: rest => if isDigit byte then .ok (rest.dropWhile isDigit) else .error .invalidNumber
  | [] => .error .invalidNumber

def skipOptionalExponent : List UInt8 → Except FormError (List UInt8)
  | byte :: rest =>
      if byte = byteOf 'e' || byte = byteOf 'E' then skipExponent rest else .ok (byte :: rest)
  | [] => .ok []

/-- Passes a fraction and an exponent if they follow. -/
def skipAfterWhole : List UInt8 → Except FormError (List UInt8)
  | byte :: rest =>
      if byte = byteOf '.' then
        match rest with
        | digit :: _ =>
            if isDigit digit then skipOptionalExponent (rest.dropWhile isDigit)
            else .error .invalidNumber
        | [] => .error .invalidNumber
      else skipOptionalExponent (byte :: rest)
  | [] => .ok []

/-- Passes a number after its sign without computing it. -/
def skipUnsigned : List UInt8 → Except FormError (List UInt8)
  | [] => .error .invalidNumber
  | byte :: rest =>
      if byte = byteOf '0' then
        match rest with
        | next :: _ => if isDigit next then .error .invalidNumber else skipAfterWhole rest
        | [] => skipAfterWhole rest
      else if isDigit byte then skipAfterWhole (rest.dropWhile isDigit)
      else .error .invalidNumber

end LogIntake.Json
