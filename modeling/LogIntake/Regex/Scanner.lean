import LogIntake.Regex.CharClass

/-! The smallest parts of a pattern's text: layout that extended patterns may hold, numbers,
escapes and flags. Each function takes the text at its part and returns what it reads
together with the text after it.
-/

namespace LogIntake.Regex

open LogIntake.Unicode

/-- Takes a part off the front of a pattern's text. -/
abbrev Scan (α : Type) :=
  List Char → Except Fault (α × List Char)

def isBlank (c : Char) : Bool :=
  Property.whiteSpace.contains c.toNat

/-- Drops blanks and comments, which go from a number sign to the end of the line. The first
argument tells whether the text starts inside a comment.
-/
def dropLayout : Bool → List Char → List Char
  | _, [] => []
  | true, c :: rest => dropLayout (c ≠ '\n') rest
  | false, c :: rest =>
      if isBlank c then dropLayout false rest
      else if c = '#' then dropLayout true rest
      else c :: rest

def skipLayout (extended : Bool) (text : List Char) : List Char :=
  if extended then dropLayout false text else text

def maxNumber : Nat :=
  Nat.pow 2 32 - 1

/-- Takes the digits of a number, between which an extended pattern may hold layout. The
first argument bounds the number of steps.
-/
def takeDigits (extended : Bool) : Nat → List Char → List Char × List Char
  | 0, text => ([], text)
  | _ + 1, [] => ([], [])
  | fuel + 1, c :: rest =>
      if c.isDigit then
        let (digits, rest) := takeDigits extended fuel (skipLayout extended rest)
        (c :: digits, rest)
      else ([], c :: rest)

def takeNumber (extended : Bool) : Scan Nat := fun text =>
  let (digits, rest) := takeDigits extended text.length (text.dropWhile isBlank)
  let value := digits.foldl (fun value c => value * 10 + (c.toNat - '0'.toNat)) 0
  if digits.isEmpty || maxNumber < value then .error .invalidCount
  else .ok (value, skipLayout extended (rest.dropWhile isBlank))

/-- The value of a hexadecimal digit of either case. -/
def hexDigit? (c : Char) : Option Nat :=
  if '0' ≤ c ∧ c ≤ '9' then some (c.toNat - '0'.toNat)
  else if 'a' ≤ c ∧ c ≤ 'f' then some (c.toNat - 'a'.toNat + 10)
  else if 'A' ≤ c ∧ c ≤ 'F' then some (c.toNat - 'A'.toNat + 10)
  else none

def charOfCode (code : Nat) : Except Fault Char :=
  if h : code.isValidChar then .ok (Char.ofNatAux code h) else .error .invalidCodePoint

def takeFixedHex (extended : Bool) : Nat → Nat → Scan Nat
  | 0, value, text => .ok (value, text)
  | _ + 1, _, [] => .error .unexpectedEnd
  | count + 1, value, c :: rest =>
      match hexDigit? c with
      | some digit => takeFixedHex extended count (value * 16 + digit) (skipLayout extended rest)
      | none => .error .invalidEscape

/-- Takes hexadecimal digits up to the closing brace. The first argument bounds the number of
steps.
-/
def takeBracedHex (extended : Bool) : Nat → List Nat → Scan (List Nat)
  | 0, _, _ => .error .unexpectedEnd
  | fuel + 1, digits, text =>
      match skipLayout extended text with
      | [] => .error .unexpectedEnd
      | '\x7d' :: rest => .ok (digits.reverse, skipLayout extended rest)
      | c :: rest =>
          match hexDigit? c with
          | some digit => takeBracedHex extended fuel (digit :: digits) rest
          | none => .error .invalidEscape

/-- Takes a code point after the letter that announces it: a fixed number of digits, or any
number of them between braces. Only two fixed digits write a byte.
-/
def takeHex (extended : Bool) (digits : Nat) : Scan Pattern := fun text =>
  match skipLayout extended text with
  | [] => .error .unexpectedEnd
  | '\x7b' :: rest => do
      let (digits, rest) ← takeBracedHex extended (rest.length + 1) [] rest
      if digits.isEmpty then throw .invalidCodePoint
      let c ← charOfCode (digits.foldl (fun value digit => value * 16 + digit) 0)
      return (.literal ⟨c, false⟩, rest)
  | text => do
      let (code, rest) ← takeFixedHex extended digits 0 text
      let c ← charOfCode code
      return (.literal ⟨c, digits = 2⟩, rest)

/-- Takes a name up to the closing brace. The first argument bounds the number of steps. -/
def takeBracedName (extended : Bool) : Nat → List Char → Scan (List Char)
  | 0, _, _ => .error .unexpectedEnd
  | fuel + 1, name, text =>
      match skipLayout extended text with
      | [] => .error .unexpectedEnd
      | '\x7d' :: rest => .ok (name.reverse, rest)
      | c :: rest => takeBracedName extended fuel (c :: name) rest

/-- Splits a text at the first place where a mark stands. -/
def splitAtMark? (mark : List Char) : List Char → Option (List Char × List Char)
  | [] => none
  | c :: rest =>
      if mark.isPrefixOf (c :: rest) then some ([], (c :: rest).drop mark.length)
      else (splitAtMark? mark rest).map fun (before, after) => (c :: before, after)

/-- What a Unicode class between braces asks for. -/
def propertyQuery (name : List Char) : PropertyQuery :=
  match (splitAtMark? ['!', '='] name).orElse fun _ =>
      (splitAtMark? [':'] name).orElse fun _ => splitAtMark? ['='] name with
  | some (property, value) => .valued (String.ofList property) (String.ofList value)
  | none => .named (String.ofList name)

def takeProperty (extended negated : Bool) : Scan Pattern := fun text =>
  match skipLayout extended text with
  | [] => .error .unexpectedEnd
  | '\x7b' :: rest => do
      let (name, rest) ← takeBracedName extended (rest.length + 1) [] rest
      return (.set (.property (propertyQuery name) negated), rest)
  | '\\' :: _ => .error .invalidEscape
  | c :: rest =>
      .ok (.set (.property (.named (String.singleton c)) negated), skipLayout extended rest)

/-- The characters that mean something outside brackets or inside. -/
def isMeta (c : Char) : Bool :=
  "\\.+*?()|[]\x7b\x7d^$#&-~".toList.contains c

/-- Whether a character may be escaped to stand for itself. -/
def isEscapable (c : Char) : Bool :=
  isMeta c || (c.toNat < 0x80 && !c.isAlphanum && c ≠ '<' && c ≠ '>')

/-- Whether a character may occur in the name of a word edge. -/
def isEdgeNameChar (c : Char) : Bool :=
  c.isAlpha || c = '-'

def wordEdge? (name : List Char) : Option WordEdge :=
  match String.ofList name with
  | "start" => some .start
  | "end" => some .finish
  | "start-half" => some .startHalf
  | "end-half" => some .finishHalf
  | _ => none

/-- Takes the characters of the name of a word edge. -/
def takeEdgeName (extended : Bool) : Nat → List Char → List Char × List Char
  | 0, text => ([], text)
  | _ + 1, [] => ([], [])
  | fuel + 1, c :: rest =>
      if isEdgeNameChar c then
        let (name, rest) := takeEdgeName extended fuel (skipLayout extended rest)
        (c :: name, rest)
      else ([], c :: rest)

/-- Takes the braces that may follow the letter for a word boundary. Braces that do not start
with a name are left for a repetition.
-/
def takeWordEdge (extended : Bool) : Scan Pattern := fun text =>
  match text with
  | '\x7b' :: inner =>
      match skipLayout extended inner with
      | [] => .error .unexpectedEnd
      | c :: rest =>
          if !isEdgeNameChar c then .ok (.assertion (.word .boundary), text)
          else
            match takeEdgeName extended (inner.length + 1) (c :: rest) with
            | (name, '\x7d' :: rest) =>
                match wordEdge? name with
                | some edge => .ok (.assertion (.word edge), rest)
                | none => .error .invalidEscape
            | _ => .error .invalidEscape
  | _ => .ok (.assertion (.word .boundary), text)

/-- The character or the assertion that an escaped letter stands for. -/
def letterEscape? (c : Char) : Option Pattern :=
  let plain := fun code : Nat => some (Pattern.literal ⟨Char.ofNat code, false⟩)
  match c with
  | 'a' => plain 0x07
  | 'f' => plain 0x0C
  | 't' => plain 0x09
  | 'n' => plain 0x0A
  | 'r' => plain 0x0D
  | 'v' => plain 0x0B
  | 'A' => some (.assertion .textStart)
  | 'z' => some (.assertion .textEnd)
  | 'B' => some (.assertion (.word .notBoundary))
  | '<' => some (.assertion (.word .start))
  | '>' => some (.assertion (.word .finish))
  | 'd' => some (.set (.shorthand .digit false))
  | 's' => some (.set (.shorthand .space false))
  | 'w' => some (.set (.shorthand .word false))
  | 'D' => some (.set (.shorthand .digit true))
  | 'S' => some (.set (.shorthand .space true))
  | 'W' => some (.set (.shorthand .word true))
  | _ => none

def takeEscape (extended : Bool) : Scan Pattern := fun text =>
  match text with
  | [] => .error .unexpectedEnd
  | c :: rest =>
      if c.isDigit then .error .unsupportedBackreference
      else if c = 'x' then takeHex extended 2 rest
      else if c = 'u' then takeHex extended 4 rest
      else if c = 'U' then takeHex extended 8 rest
      else if c = 'p' || c = 'P' then takeProperty extended (c = 'P') rest
      else if c = 'b' then takeWordEdge extended rest
      else if isEscapable c then .ok (.literal ⟨c, false⟩, rest)
      else
        match letterEscape? c with
        | some pattern => .ok (pattern, rest)
        | none => .error .invalidEscape

/-- Takes flags up to a colon or a closing parenthesis, which is returned with them. The
first argument holds the flags so far, in reverse; none is the negation.
-/
def takeFlags : List (Option Flag) → Scan (List (Option Flag) × Char)
  | _, [] => .error .unexpectedEnd
  | flags, c :: rest =>
      if c = ':' || c = ')' then
        if flags.head? = some none then .error .danglingNegation
        else .ok ((flags.reverse, c), rest)
      else
        match (if c = '-' then some none else (Flag.ofLetter? c).map some) with
        | none => .error .unknownFlag
        | some flag =>
            if flags.contains flag then .error .duplicateFlag else takeFlags (flag :: flags) rest

/-- The change that a list of flags makes: those after the negation are switched off. -/
def flagChange (flags : List (Option Flag)) : FlagChange :=
  ⟨(flags.takeWhile Option.isSome).filterMap id, (flags.dropWhile Option.isSome).filterMap id⟩

end LogIntake.Regex
