import LogIntake.Yaml.Parser

/-! How YAML values show themselves to decoders of records. A scalar of any form is a text; a
plain one may be a number, and an empty plain one stands for a list or a record with nothing in
it.
-/

namespace LogIntake.Yaml

def asText : Yaml → Except Fault String
  | .scalar _ _ text => .ok text
  | _ => .error (.mismatch "a string")

def asFlag : Yaml → Except Fault Bool
  | .scalar .plain _ text =>
      if ["true", "True", "TRUE"].contains text then .ok true
      else if ["false", "False", "FALSE"].contains text then .ok false
      else .error (.mismatch "a boolean")
  | _ => .error (.mismatch "a boolean")

def dropPlus : List Char → List Char
  | '+' :: rest => rest
  | chars => chars

/-- The value of digits in a base, if there are any and all are such. -/
def valueOf? (base : Nat) (chars : List Char) : Option Nat :=
  if chars.isEmpty then none
  else do
    let values ← chars.mapM hexDigit?
    if values.all (· < base) then
      some (values.foldl (fun value digit => value * base + digit) 0)
    else none

/-- A natural number in hexadecimal, octal, binary or decimal notation. A decimal number does
not begin with a superfluous zero.
-/
def natural? (text : String) : Option Nat :=
  match dropPlus text.toList with
  | '0' :: 'x' :: digits => valueOf? 16 digits
  | '0' :: 'o' :: digits => valueOf? 8 digits
  | '0' :: 'b' :: digits => valueOf? 2 digits
  | '0' :: _ :: _ => none
  | digits => valueOf? 10 digits

/-- Whether a scalar may be a number: it is plain, or a block of lines with the tag of
integers.
-/
def mayBeNumber (style : ScalarStyle) (tag : Option String) : Bool :=
  style = .plain || (style = .literal && tag = some "tag:yaml.org,2002:int")

def asWord : Yaml → Except Fault Nat
  | .scalar style tag text =>
      match if mayBeNumber style tag then natural? text else none with
      | some n => if n < Nat.pow 2 64 then .ok n else .error (.mismatch "a 64-bit number")
      | none => .error (.mismatch "a 64-bit number")
  | _ => .error (.mismatch "a 64-bit number")

def isBlankScalar : Yaml → Bool
  | .scalar .plain _ text => text.isEmpty
  | _ => false

def asItems : Yaml → Except Fault (List Yaml)
  | .sequence items => .ok items
  | value => if isBlankScalar value then .ok [] else .error (.mismatch "a sequence")

/-- The entries of a mapping whose keys are scalars. -/
def asEntries : Yaml → Except Fault (List (String × Yaml))
  | .mapping entries =>
      entries.mapM fun entry => do
        let name ← asText entry.1
        return (name, entry.2)
  | value => if isBlankScalar value then .ok [] else .error (.mismatch "a map")

/-- A record, which is always a mapping of its fields. -/
def asRecord (expected : String) (value : Yaml) : Except Fault (RecordForm Yaml) :=
  match asEntries value with
  | .ok entries => .ok (.named entries)
  | .error _ => .error (.mismatch expected)

def dataFormat : DataFormat Yaml Fault where
  text := asText
  flag := asFlag
  word := asWord
  items := asItems
  entries := asEntries
  record := asRecord
  surplusItems _ := none
  repeatedField := .repeatedField
  rejected := .rejected

end LogIntake.Yaml
