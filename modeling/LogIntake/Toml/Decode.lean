import LogIntake.Toml.Value

/-! How TOML values show themselves to decoders of records. -/

namespace LogIntake.Toml

def asText : Toml → Except Fault String
  | .text value => .ok value
  | _ => .error (.mismatch "a string")

def asFlag : Toml → Except Fault Bool
  | .boolean b => .ok b
  | _ => .error (.mismatch "a boolean")

def asWord : Toml → Except Fault Nat
  | .integer n =>
      if 0 ≤ n ∧ n < Nat.pow 2 64 then .ok n.toNat else .error (.mismatch "a 64-bit number")
  | _ => .error (.mismatch "a 64-bit number")

def asItems : Toml → Except Fault (List Toml)
  | .array items => .ok items
  | _ => .error (.mismatch "a sequence")

def asEntries : Toml → Except Fault (List (String × Toml))
  | .table entries => .ok entries
  | _ => .error (.mismatch "a map")

/-- A record: a table of its fields or an array of their values. A date passes for a record
that sets no field.
-/
def asRecord (expected : String) : Toml → Except Fault (RecordForm Toml)
  | .table entries => .ok (.named entries)
  | .array items => .ok (.listed items)
  | .datetime _ => .ok (.named [])
  | _ => .error (.mismatch expected)

/-- How TOML values show themselves. Items after the last field of a record are ignored. -/
def dataFormat : DataFormat Toml Fault where
  text := asText
  flag := asFlag
  word := asWord
  items := asItems
  entries := asEntries
  record := asRecord
  surplusItems _ := none
  repeatedField := .repeatedField
  rejected := .rejected

end LogIntake.Toml
