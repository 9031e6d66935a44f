import LogIntake.Json.Value
import LogIntake.Text.Utf8

/-! The smallest parts of a JSON document: blanks, words, strings and numbers. Each function
takes the bytes at its part and returns what it reads together with the bytes after it.
-/

namespace LogIntake.Json

def isBlank (byte : UInt8) : Bool :=
  byte = 0x20 || byte = 0x0A || byte = 0x09 || byte = 0x0D

def skipBlanks (bytes : List UInt8) : List UInt8 :=
  bytes.dropWhile isBlank

def byteOf (c : Char) : UInt8 :=
  UInt8.ofNat c.toNat

def readWord : List Char → List UInt8 → Except FormError (List UInt8)
  | [], bytes => .ok bytes
  | _ :: _, [] => .error .endInValue
  | c :: word, byte :: bytes =>
      if byte = byteOf c then readWord word bytes else .error .expectedWord

/-- The value of a hexadecimal digit of either case. -/
def hexDigit? (byte : UInt8) : Option Nat :=
  if byteOf '0' ≤ byte && byte ≤ byteOf '9' then some (byte.toNat - 0x30)
  else if byteOf 'a' ≤ byte && byte ≤ byteOf 'f' then some (byte.toNat - 0x61 + 10)
  else if byteOf 'A' ≤ byte && byte ≤ byteOf 'F' then some (byte.toNat - 0x41 + 10)
  else none

def hexQuad? (a b c d : UInt8) : Option Nat := do
  let a ← hexDigit? a
  let b ← hexDigit? b
  let c ← hexDigit? c
  let d ← hexDigit? d
  return ((a * 16 + b) * 16 + c) * 16 + d

/-- The byte that a one-letter escape stands for. -/
def simpleEscape? (byte : UInt8) : Option UInt8 :=
  if byte = byteOf '"' || byte = byteOf '\\' || byte = byteOf '/' then some byte
  else if byte = byteOf 'b' then some 0x08
  else if byte = byteOf 'f' then some 0x0C
  else if byte = byteOf 'n' then some 0x0A
  else if byte = byteOf 'r' then some 0x0D
  else if byte = byteOf 't' then some 0x09
  else none

/-- Whether a code unit is the first half of a surrogate pair. -/
def isHighSurrogate (unit : Nat) : Bool :=
  0xD800 ≤ unit && unit ≤ 0xDBFF

/-- Whether a code unit is the second half of a surrogate pair. -/
def isLowSurrogate (unit : Nat) : Bool :=
  0xDC00 ≤ unit && unit ≤ 0xDFFF

def bytesOfCode (code : Nat) : List UInt8 :=
  String.utf8EncodeChar (Char.ofNat code)

def pairCode (high low : Nat) : Nat :=
  (high - 0xD800) * 0x400 + (low - 0xDC00) + 0x10000

def readHexQuad : List UInt8 → Except FormError (Nat × List UInt8)
  | a :: b :: c :: d :: rest =>
      match hexQuad? a b c d with
      | some unit => .ok (unit, rest)
      | none => .error .invalidEscape
  | _ => .error .endInString

def readLowSurrogate (high : Nat) : List UInt8 → Except FormError (List UInt8 × List UInt8)
  | [] => .error .endInString
  | 0x5C :: [] => .error .endInString
  | 0x5C :: 0x75 :: rest => do
      let (low, rest) ← readHexQuad rest
      if isLowSurrogate low then return (bytesOfCode (pairCode high low), rest)
      else throw .loneSurrogate
  | _ => .error .endOfSurrogatePair

/-- Reads an escape after its backslash, giving the bytes that it stands for. -/
def readEscape : List UInt8 → Except FormError (List UInt8 × List UInt8)
  | [] => .error .endInString
  | 0x75 :: rest => do
      let (unit, rest) ← readHexQuad rest
      if isLowSurrogate unit then throw .loneSurrogate
      else if isHighSurrogate unit then readLowSurrogate unit rest
      else return (bytesOfCode unit, rest)
  | byte :: rest =>
      match simpleEscape? byte with
      | some value => .ok ([value], rest)
      | none => .error .invalidEscape

/-- Reads the bytes of a string up to its closing quote. The first argument bounds the number
of steps, each of which uses up a byte; the second holds what was read, in reverse.
-/
def readStringBytes : Nat → List UInt8 → List UInt8
    → Except FormError (List UInt8 × List UInt8)
  | 0, _, _ => .error .endInString
  | _ + 1, _, [] => .error .endInString
  | fuel + 1, before, byte :: rest =>
      if byte = 0x22 then .ok (before.reverse, rest)
      else if byte = 0x5C then
        match readEscape rest with
        | .ok (value, rest) => readStringBytes fuel (value.reverse ++ before) rest
        | .error e => .error e
      else if byte < 0x20 then .error .controlCharacter
      else readStringBytes fuel (byte :: before) rest

def readString (bytes : List UInt8) : Except FormError (String × List UInt8) := do
  let (content, rest) ← readStringBytes (bytes.length + 1) [] bytes
  match Text.Utf8.decode? content with
  | some text => return (text, rest)
  | none => throw .invalidCodePoint

/-- Passes an escape after its backslash without interpreting it. -/
def skipEscape : List UInt8 → Except FormError (List UInt8)
  | [] => .error .endInString
  | 0x75 :: rest => do
      let (_, rest) ← readHexQuad rest
      return rest
  | byte :: rest => if (simpleEscape? byte).isSome then .ok rest else .error .invalidEscape

/-- Passes a string up to its closing quote without interpreting it. -/
def skipStringBytes : Nat → List UInt8 → Except FormError (List UInt8)
  | 0, _ => .error .endInString
  | _ + 1, [] => .error .endInString
  | fuel + 1, byte :: rest =>
      if byte = 0x22 then .ok rest
      else if byte = 0x5C then
        match skipEscape rest with
        | .ok rest => skipStringBytes fuel rest
        | .error e => .error e
      else if byte < 0x20 then .error .controlCharacter
      else skipStringBytes fuel rest

def skipString (bytes : List UInt8) : Except FormError (List UInt8) :=
  skipStringBytes (bytes.length + 1) bytes

end LogIntake.Json
