import LogIntake.DataFormat
import LogIntake.Json.Value

/-! Decoding from JSON values. The members of an object are visited in the order in which the
value holds them, so the first unfit member in that order is the error.
-/

namespace LogIntake.Json

def asText : Json → Except DecodeError String
  | .str text => .ok text
  | value => .error (.invalidType value.found "a string")

def asFlag : Json → Except DecodeError Bool
  | .bool b => .ok b
  | value => .error (.invalidType value.found "a boolean")

/-- The value of a number that is an unsigned word. -/
def asWord : Json → Except DecodeError Nat
  | .num (.natural n) => .ok n
  | .num (.negative n) => .error (.invalidValue (.number (.negative n)) "u64")
  | value => .error (.invalidType value.found "u64")

def asItems : Json → Except DecodeError (List Json)
  | .arr items => .ok items
  | value => .error (.invalidType value.found "a sequence")

def asMembers : Json → Except DecodeError (List (String × Json))
  | .obj members => .ok members
  | value => .error (.invalidType value.found "a map")

/-- A record is an object or the list of its fields. -/
def asRecord (expected : String) : Json → Except DecodeError (RecordForm Json)
  | .obj members => .ok (.named members)
  | .arr items => .ok (.listed items)
  | value => .error (.invalidType value.found expected)

def dataFormat : DataFormat Json DecodeError where
  text := asText
  flag := asFlag
  word := asWord
  items := asItems
  entries := asMembers
  record := asRecord
  surplusItems count := some (.invalidLength count "fewer elements in array")
  repeatedField := .duplicateField
  rejected := .rejected

/-- The member of an object; absent if the value is no object. -/
def member? (value : Json) (name : String) : Option Json :=
  match value with
  | .obj members => members.lookup name
  | _ => none

end LogIntake.Json
