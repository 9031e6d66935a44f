import LogIntake.Regex.Error
import LogIntake.Regex.Pattern
import LogIntake.Unicode.CaseMapping
import LogIntake.Unicode.Script

/-! The code points that a set of characters stands for under the options in force. Where the
Unicode option is off, sets range over ASCII only.
-/

namespace LogIntake.Regex

open LogIntake.Unicode

/-- The name of a property in the form in which names are compared: lower case, without
blanks, hyphens, underscores and foreign characters, and without the word that may introduce
it.
-/
def normalizeName (name : String) : String :=
  let chars := name.toList
  let introduced :=
    match chars with
    | a :: b :: _ => a.toLower = 'i' && b.toLower = 's'
    | _ => false
  let kept := (if introduced then chars.drop 2 else chars).filterMap fun c =>
    if c = ' ' || c = '_' || c = '-' || 0x80 ≤ c.toNat then none else some c.toLower
  if introduced && kept = ['c'] then "isc" else String.ofList kept

/-- The code points of a Unicode class that is named by one name. -/
def namedRanges? (name : String) : Option CodeRanges :=
  let name := normalizeName name
  let property := if name = "cf" || name = "sc" || name = "lc" then none
    else Property.rangesNamed? name
  match property with
  | some ranges => some ranges
  | none =>
      match GeneralCategory.rangesNamed? name with
      | some ranges => some ranges
      | none => Script.rangesNamed? name

/-- The code points of a Unicode class that is a value of a property. -/
def valuedRanges? (property value : String) : Option CodeRanges :=
  let property := normalizeName property
  if property = "gc" || property = "generalcategory" then
    GeneralCategory.rangesNamed? (normalizeName value)
  else if property = "sc" || property = "script" then
    Script.rangesNamed? (normalizeName value)
  else none

def PropertyQuery.ranges? : PropertyQuery → Option CodeRanges
  | .named name => namedRanges? name
  | .valued property value => valuedRanges? property value

def ascii (first last : Char) : CodeRange :=
  ⟨first.toNat, last.toNat⟩

def posixRanges? (name : String) : Option CodeRanges :=
  match name with
  | "alnum" => some [ascii '0' '9', ascii 'A' 'Z', ascii 'a' 'z']
  | "alpha" => some [ascii 'A' 'Z', ascii 'a' 'z']
  | "ascii" => some [⟨0, 0x7F⟩]
  | "blank" => some [ascii '\t' '\t', ascii ' ' ' ']
  | "cntrl" => some [⟨0, 0x1F⟩, ⟨0x7F, 0x7F⟩]
  | "digit" => some [ascii '0' '9']
  | "graph" => some [ascii '!' '~']
  | "lower" => some [ascii 'a' 'z']
  | "print" => some [ascii ' ' '~']
  | "punct" => some [ascii '!' '/', ascii ':' '@', ascii '[' '\x60', ascii '\x7b' '~']
  | "space" => some [⟨0x09, 0x0D⟩, ascii ' ' ' ']
  | "upper" => some [ascii 'A' 'Z']
  | "word" => some [ascii '0' '9', ascii 'A' 'Z', ascii '_' '_', ascii 'a' 'z']
  | "xdigit" => some [ascii '0' '9', ascii 'A' 'F', ascii 'a' 'f']
  | _ => none

def Shorthand.ranges (kind : Shorthand) (unicode : Bool) : CodeRanges :=
  match kind, unicode with
  | .digit, true => GeneralCategory.ranges .decimalNumber
  | .space, true => Property.whiteSpace
  | .word, true => Property.word
  | .digit, false => (posixRanges? "digit").getD []
  | .space, false => (posixRanges? "space").getD []
  | .word, false => (posixRanges? "word").getD []

def isAscii (ranges : CodeRanges) : Bool :=
  ranges.all fun range => range.last < 0x80

/-- Adds the other case of the ASCII letters of a set. -/
def closeUnderAsciiFolding (ranges : CodeRanges) : CodeRanges :=
  let upper := (CodeRanges.inter ranges [ascii 'a' 'z']).map fun range =>
    (⟨range.first - 32, range.last - 32⟩ : CodeRange)
  let lower := (CodeRanges.inter ranges [ascii 'A' 'Z']).map fun range =>
    (⟨range.first + 32, range.last + 32⟩ : CodeRange)
  CodeRanges.normalize (ranges ++ upper ++ lower)

/-- Adds the other cases of the members of a set if case is to be ignored. -/
def foldCase (flags : Flags) (ranges : CodeRanges) : CodeRanges :=
  if !flags.ignoreCase then ranges
  else if flags.unicode then closeUnderFolding ranges
  else closeUnderAsciiFolding ranges

/-- What a set leaves out: of all code points, or of all bytes where the Unicode option is
off.
-/
def complementIn (flags : Flags) (ranges : CodeRanges) : CodeRanges :=
  if flags.unicode then ranges.complement else CodeRanges.inter ranges.complement [⟨0, 0xFF⟩]

/-- Folds case first and then takes the complement if that is asked for. A set of bytes must
not go beyond ASCII, lest it matches a part of a character.
-/
def foldAndNegate (flags : Flags) (negated : Bool) (ranges : CodeRanges)
    : Except Fault CodeRanges :=
  let folded := foldCase flags ranges
  let result := if negated then complementIn flags folded else folded
  if flags.unicode || isAscii result then .ok result else .error .notWellFormedText

def Literal.codeInSet (flags : Flags) (literal : Literal) : Except Fault Nat :=
  if flags.unicode || literal.isByte || literal.char.toNat < 0x80 then .ok literal.char.toNat
  else .error .unicodeNotAllowed

def SetOp.apply : SetOp → CodeRanges → CodeRanges → CodeRanges
  | .intersection => CodeRanges.inter
  | .difference => CodeRanges.diff
  | .symmetricDifference => CodeRanges.symmDiff

namespace CharSet

mutual

/-- The code points of a set. The Unicode classes for shorthands contain all cases of their
members already.
-/
def ranges (flags : Flags) : CharSet → Except Fault CodeRanges
  | .range first last => do
      let first ← first.codeInSet flags
      let last ← last.codeInSet flags
      return [⟨first, last⟩]
  | .shorthand kind negated =>
      if flags.unicode then
        let ranges := kind.ranges true
        .ok (if negated then CodeRanges.complement ranges else ranges)
      else if negated then .error .notWellFormedText
      else .ok (kind.ranges false)
  | .posix name negated => foldAndNegate flags negated ((posixRanges? name).getD [])
  | .property query negated =>
      if !flags.unicode then .error .unicodeNotAllowed
      else
        match query.ranges? with
        | some ranges => foldAndNegate flags negated ranges
        | none => .error .unknownProperty
  | .bracketed set negated => do
      let ranges ← ranges flags set
      foldAndNegate flags negated ranges
  | .union sets => rangesOfList flags sets
  | .combined op left right => do
      let left ← ranges flags left
      let right ← ranges flags right
      return op.apply (foldCase flags left) (foldCase flags right)

def rangesOfList (flags : Flags) : List CharSet → Except Fault CodeRanges
  | [] => .ok []
  | set :: sets => do
      let first ← ranges flags set
      let rest ← rangesOfList flags sets
      return CodeRanges.union first rest

end

end CharSet

end LogIntake.Regex
