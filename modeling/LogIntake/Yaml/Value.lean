import LogIntake.DataFormat

/-! YAML values, and what can be wrong with a document or with a value in a place.
-/

namespace LogIntake

/-- How a scalar is written. Only plain scalars can stand for numbers and for nothing at all; a
scalar in block notation stands for a number if its tag says so.
-/
inductive ScalarStyle where
  | plain
  | quoted
  | literal
  | folded
  deriving Repr, DecidableEq, Inhabited

/-- A YAML value. An alias within the value that it refers to is endless. -/
inductive Yaml where
  | scalar (style : ScalarStyle) (tag : Option String) (text : String)
  | sequence (items : List Yaml)
  | mapping (entries : List (Yaml × Yaml))
  | endless
  deriving Repr, Inhabited

namespace Yaml

/-- What is wrong. -/
inductive Fault where
  | controlCharacter
  | invalidDirective
  | invalidAnchor
  | invalidTag
  | invalidEscape
  | invalidIndentation
  | invalidBlockHeader
  | unexpectedCharacter
  | unexpectedToken
  | unexpectedEnd
  | missingColon
  | misplacedEntry
  | misplacedKey
  | misplacedValue
  | unknownAnchor
  | severalDocuments
  | mismatch (expected : String)
  | repeatedField (name : String)
  | rejected (reason : String)
  deriving Repr, DecidableEq, Inhabited

def Fault.message : Fault → String
  | .controlCharacter => "control characters are not allowed"
  | .invalidDirective => "invalid directive"
  | .invalidAnchor => "did not find expected alphabetic or numeric character"
  | .invalidTag => "invalid tag"
  | .invalidEscape => "found unknown escape character"
  | .invalidIndentation => "found a tab character that violates indentation"
  | .invalidBlockHeader => "did not find expected comment or line break"
  | .unexpectedCharacter => "found character that cannot start any token"
  | .unexpectedToken => "did not find expected node content"
  | .unexpectedEnd => "found unexpected end of stream"
  | .missingColon => "could not find expected ':'"
  | .misplacedEntry => "block sequence entries are not allowed in this context"
  | .misplacedKey => "mapping keys are not allowed in this context"
  | .misplacedValue => "mapping values are not allowed in this context"
  | .unknownAnchor => "unknown anchor"
  | .severalDocuments =>
      "deserializing from YAML containing more than one document is not supported"
  | .mismatch expected => "invalid type, expected " ++ expected
  | .repeatedField name => "duplicate field " ++ name
  | .rejected reason => reason

end Yaml

end LogIntake
