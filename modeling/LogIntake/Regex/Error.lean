/-! What can be wrong with a regular expression.
-/

namespace LogIntake.Regex

/-- A fault in the text of a pattern. -/
inductive Fault where
  | unexpectedEnd
  | unclosedGroup
  | unopenedGroup
  | unclosedClass
  | invalidClassRange
  | invalidClassItem
  | invalidGroupName
  | duplicateGroupName
  | unknownFlag
  | duplicateFlag
  | danglingNegation
  | nothingToRepeat
  | invalidCount
  | invalidEscape
  | invalidCodePoint
  | unsupportedLookAround
  | unsupportedBackreference
  | nestingTooDeep
  | unknownProperty
  | unicodeNotAllowed
  | notWellFormedText
  deriving Repr, DecidableEq, Inhabited

def Fault.message : Fault → String
  | .unexpectedEnd => "the pattern ends too early"
  | .unclosedGroup => "unclosed group"
  | .unopenedGroup => "unopened group"
  | .unclosedClass => "unclosed character class"
  | .invalidClassRange => "invalid character class range"
  | .invalidClassItem => "invalid item in a character class"
  | .invalidGroupName => "invalid capture group name"
  | .duplicateGroupName => "duplicate capture group name"
  | .unknownFlag => "unrecognized flag"
  | .duplicateFlag => "duplicate flag"
  | .danglingNegation => "dangling flag negation operator"
  | .nothingToRepeat => "repetition operator missing expression"
  | .invalidCount => "invalid repetition count"
  | .invalidEscape => "unrecognized escape sequence"
  | .invalidCodePoint => "invalid hexadecimal escape"
  | .unsupportedLookAround => "look-around is not supported"
  | .unsupportedBackreference => "backreferences are not supported"
  | .nestingTooDeep => "exceeded the maximum nesting depth"
  | .unknownProperty => "Unicode property not found"
  | .unicodeNotAllowed => "Unicode is not allowed here"
  | .notWellFormedText => "the pattern can match text that is not well-formed"

/-- Why a pattern does not compile. -/
inductive Error where
  | fault (cause : Fault)
  | tooLarge
  deriving Repr, DecidableEq, Inhabited

/-- The greatest size of a compiled pattern, in bytes. -/
def sizeLimit : Nat :=
  10 * Nat.pow 2 20

def Error.message : Error → String
  | .fault cause => "regex parse error:\n" ++ cause.message
  | .tooLarge => s!"Compiled regex exceeds size limit of {sizeLimit} bytes."

end LogIntake.Regex
