import LogIntake.Decimal.Shortest
import LogIntake.Text.Quoted

/-! JSON values and the errors of reading them. Numbers keep apart what fits an unsigned
word, what fits a negative signed word, and everything else as a binary fraction.
-/

namespace LogIntake

/-- A JSON number. -/
inductive Json.Number where
  | natural (n : Nat)
  | negative (magnitude : Nat)
  | fraction (x : Binary64)
  deriving Repr, DecidableEq, Inhabited

/-- A JSON value. Reading puts the members of an object into ascending order of names, each
name once; printing keeps the order that the members have.
-/
inductive Json where
  | null
  | bool (b : Bool)
  | num (n : Json.Number)
  | str (text : String)
  | arr (items : List Json)
  | obj (members : List (String × Json))
  deriving Repr, Inhabited

namespace Json

/-- What is wrong with the form of a document. -/
inductive FormError where
  | endInList
  | endInObject
  | endInString
  | endInValue
  | expectedColon
  | expectedListCommaOrEnd
  | expectedObjectCommaOrEnd
  | expectedWord
  | expectedValue
  | invalidEscape
  | invalidNumber
  | numberOutOfRange
  | invalidCodePoint
  | controlCharacter
  | keyMustBeString
  | loneSurrogate
  | trailingComma
  | trailingCharacters
  | endOfSurrogatePair
  | tooDeep
  deriving Repr, DecidableEq, Inhabited

/-- The reason that an error gives. The line and the column at which reading stopped, which a full
error text goes on to tell, are not part of it.
-/
def FormError.message : FormError → String
  | .endInList => "EOF while parsing a list"
  | .endInObject => "EOF while parsing an object"
  | .endInString => "EOF while parsing a string"
  | .endInValue => "EOF while parsing a value"
  | .expectedColon => "expected `:`"
  | .expectedListCommaOrEnd => "expected `,` or `]`"
  | .expectedObjectCommaOrEnd => "expected `,` or `\x7d`"
  | .expectedWord => "expected ident"
  | .expectedValue => "expected value"
  | .invalidEscape => "invalid escape"
  | .invalidNumber => "invalid number"
  | .numberOutOfRange => "number out of range"
  | .invalidCodePoint => "invalid unicode code point"
  | .controlCharacter =>
      "control character (\\u0000-\\u001F) found while parsing a string"
  | .keyMustBeString => "key must be a string"
  | .loneSurrogate => "lone leading surrogate in hex escape"
  | .trailingComma => "trailing comma"
  | .trailingCharacters => "trailing characters"
  | .endOfSurrogatePair => "unexpected end of hex escape"
  | .tooDeep => "recursion limit exceeded"

/-- What stands where something else was expected. -/
inductive Found where
  | null
  | bool (b : Bool)
  | number (n : Number)
  | string (text : String)
  | sequence
  | map
  deriving Repr, DecidableEq, Inhabited

def Found.describe : Found → String
  | .null => "null"
  | .bool b => s!"boolean `{b}`"
  | .number (.natural n) => s!"integer `{n}`"
  | .number (.negative n) => s!"integer `-{n}`"
  | .number (.fraction x) => "floating point `" ++ Decimal.text x ++ "`"
  | .string text => "string " ++ Text.Quoted.quote text
  | .sequence => "sequence"
  | .map => "map"

/-- Why a document does not read as a value of the wanted kind. -/
inductive DecodeError where
  | form (error : FormError)
  | invalidType (found : Found) (expected : String)
  | invalidValue (found : Found) (expected : String)
  | invalidLength (length : Nat) (expected : String)
  | missingField (name : String)
  | duplicateField (name : String)
  | rejected (reason : String)
  deriving Repr, DecidableEq, Inhabited

/-- The reason that an error gives, without a line and a column as well. -/
def DecodeError.message : DecodeError → String
  | .form error => error.message
  | .invalidType found expected => s!"invalid type: {found.describe}, expected {expected}"
  | .invalidValue found expected => s!"invalid value: {found.describe}, expected {expected}"
  | .invalidLength length expected => s!"invalid length {length}, expected {expected}"
  | .missingField name => s!"missing field `{name}`"
  | .duplicateField name => s!"duplicate field `{name}`"
  | .rejected reason => reason

def found : Json → Found
  | .null => .null
  | .bool b => .bool b
  | .num n => .number n
  | .str text => .string text
  | .arr _ => .sequence
  | .obj _ => .map

end Json

end LogIntake
