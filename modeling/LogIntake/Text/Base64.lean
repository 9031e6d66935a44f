/-! Base64 text in its canonical form: four symbols stand for three bytes, the last group is
filled up with padding, and unused bits are zero.
-/

namespace LogIntake.Text.Base64

/-- Why a text is no Base64. -/
inductive DecodeError where
  | invalidSymbol (symbol : UInt8) (offset : Nat)
  | invalidLength (length : Nat)
  | invalidLastSymbol (symbol : UInt8) (offset : Nat)
  | invalidPadding
  deriving Repr, DecidableEq, Inhabited

def DecodeError.message : DecodeError → String
  | .invalidSymbol symbol offset => s!"Invalid symbol {symbol.toNat}, offset {offset}."
  | .invalidLength length => s!"Invalid input length: {length}"
  | .invalidLastSymbol symbol offset =>
      s!"Invalid last symbol {symbol.toNat}, offset {offset}."
  | .invalidPadding => "Invalid padding"

def padding : UInt8 :=
  0x3D

def value? (symbol : UInt8) : Option Nat :=
  if 0x41 ≤ symbol && symbol ≤ 0x5A then some (symbol.toNat - 0x41)
  else if 0x61 ≤ symbol && symbol ≤ 0x7A then some (symbol.toNat - 0x61 + 26)
  else if 0x30 ≤ symbol && symbol ≤ 0x39 then some (symbol.toNat - 0x30 + 52)
  else if symbol = 0x2B then some 62
  else if symbol = 0x2F then some 63
  else none

def valueAt (offset : Nat) (symbol : UInt8) : Except DecodeError Nat :=
  match value? symbol with
  | some value => .ok value
  | none => .error (.invalidSymbol symbol offset)

def groupBytes (a b c d : Nat) : List UInt8 :=
  let bits := ((a * 64 + b) * 64 + c) * 64 + d
  [UInt8.ofNat (bits / 0x10000), UInt8.ofNat (bits / 0x100 % 0x100),
   UInt8.ofNat (bits % 0x100)]

/-- The symbols of the last group before its padding, with their values. Padding may start at
the third place and has to go on to the end.
-/
def lastValues (offset : Nat) : Nat → List UInt8 → Except DecodeError (List (UInt8 × Nat))
  | _, [] => .ok []
  | index, symbol :: rest =>
      if symbol = padding then
        if index < 2 then .error (.invalidSymbol symbol (offset + index))
        else if rest.all (· = padding) then .ok []
        else .error (.invalidSymbol padding (offset + index))
      else do
        let value ← valueAt (offset + index) symbol
        let values ← lastValues offset (index + 1) rest
        return (symbol, value) :: values

/-- Decodes the last group, which has up to four symbols. -/
def decodeLast (offset : Nat) (symbols : List UInt8) : Except DecodeError (List UInt8) := do
  let values ← lastValues offset 0 symbols
  match values with
  | [] => if symbols.isEmpty then return [] else throw (.invalidLength offset)
  | [_] => throw (.invalidLength (offset + 1))
  | [(_, a), (symbol, b)] =>
      if symbols.length ≠ 4 then throw .invalidPadding
      else if b % 16 ≠ 0 then throw (.invalidLastSymbol symbol (offset + 1))
      else return (groupBytes a b 0 0).take 1
  | [(_, a), (_, b), (symbol, c)] =>
      if symbols.length ≠ 4 then throw .invalidPadding
      else if c % 4 ≠ 0 then throw (.invalidLastSymbol symbol (offset + 2))
      else return (groupBytes a b c 0).take 2
  | (_, a) :: (_, b) :: (_, c) :: (_, d) :: _ => return groupBytes a b c d

/-- Decodes groups of four symbols; the last group is whatever remains. -/
def decodeGroups (offset : Nat) : List UInt8 → Except DecodeError (List UInt8)
  | a :: b :: c :: d :: next :: rest => do
      let a ← valueAt offset a
      let b ← valueAt (offset + 1) b
      let c ← valueAt (offset + 2) c
      let d ← valueAt (offset + 3) d
      let bytes ← decodeGroups (offset + 4) (next :: rest)
      return groupBytes a b c d ++ bytes
  | symbols => decodeLast offset symbols

/-- Decodes a text. A foreign symbol that alone exceeds the last full group is reported
before anything else.
-/
def decode (symbols : List UInt8) : Except DecodeError (List UInt8) :=
  match symbols.getLast? with
  | some last =>
      if symbols.length % 4 = 1 && last ≠ padding && (value? last).isNone then
        .error (.invalidSymbol last (symbols.length - 1))
      else decodeGroups 0 symbols
  | none => .ok []

end LogIntake.Text.Base64
