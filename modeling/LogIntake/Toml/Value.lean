import LogIntake.DataFormat

/-! TOML values, and what can be wrong with a document or with a value in a place.
-/

namespace LogIntake

/-- A TOML value. Floating-point numbers and dates are kept as they are written. -/
inductive Toml where
  | text (text : String)
  | integer (n : Int)
  | float (source : String)
  | boolean (b : Bool)
  | datetime (source : String)
  | array (items : List Toml)
  | table (entries : List (String × Toml))
  deriving Repr, Inhabited

namespace Toml

/-- What is wrong. -/
inductive Fault where
  | unexpectedEnd
  | unexpectedCharacter
  | invalidKey
  | invalidText
  | invalidEscape
  | invalidScalar
  | duplicateKey
  | notATable
  | nestingTooDeep
  | numberOutOfRange
  | mismatch (expected : String)
  | repeatedField (name : String)
  | rejected (reason : String)
  deriving Repr, DecidableEq, Inhabited

def Fault.message : Fault → String
  | .unexpectedEnd => "unexpected end of the document"
  | .unexpectedCharacter => "unexpected character"
  | .invalidKey => "invalid key"
  | .invalidText => "invalid string"
  | .invalidEscape => "invalid escape sequence"
  | .invalidScalar => "invalid value"
  | .duplicateKey => "duplicate key"
  | .notATable => "a key goes on behind a value that is no table"
  | .nestingTooDeep => "values nest too deeply"
  | .numberOutOfRange => "number out of range"
  | .mismatch expected => "invalid type, expected " ++ expected
  | .repeatedField name => "duplicate field " ++ name
  | .rejected reason => reason

end Toml

end LogIntake
