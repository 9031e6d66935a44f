import LogIntake.Regex.Scanner

/-! Reading sets of characters between brackets. Brackets nest, and the operations between
sets associate to the left without precedence; open brackets are kept on a stack.
-/

namespace LogIntake.Regex

/-- What is known of a bracket level: the sets read since the last operation, in reverse, and
that operation with its left-hand side.
-/
structure BracketLevel where
  sets : List CharSet
  pending : Option (SetOp × CharSet)
  deriving Repr, Inhabited

def BracketLevel.result (level : BracketLevel) : CharSet :=
  let set := CharSet.ofItems level.sets.reverse
  match level.pending with
  | some (op, left) => .combined op left set
  | none => set

def BracketLevel.push (level : BracketLevel) (set : CharSet) : BracketLevel :=
  { level with sets := set :: level.sets }

def BracketLevel.operate (level : BracketLevel) (op : SetOp) : BracketLevel :=
  ⟨[], some (op, level.result)⟩

def singleton (literal : Literal) : CharSet :=
  .range literal literal

/-- Takes hyphens right after the opening bracket, which stand for themselves. -/
def takeHyphens (extended : Bool) : Nat → List CharSet → Scan (List CharSet)
  | 0, sets, text => .ok (sets, text)
  | _ + 1, _, [] => .error .unclosedClass
  | fuel + 1, sets, c :: rest =>
      if c = '-' then
        takeHyphens extended fuel (singleton ⟨'-', false⟩ :: sets) (skipLayout extended rest)
      else .ok (sets, c :: rest)

/-- Takes what follows an opening bracket: the negation, and the characters that stand for
themselves only there.
-/
def takeOpening (extended : Bool) : Scan (Bool × BracketLevel) := fun text => do
  let text := skipLayout extended text
  let (negated, text) :=
    match text with
    | '^' :: rest => (true, skipLayout extended rest)
    | _ => (false, text)
  let (sets, text) ← takeHyphens extended (text.length + 1) [] text
  match sets, text with
  | [], ']' :: rest =>
      match skipLayout extended rest with
      | [] => throw .unclosedClass
      | rest => return ((negated, ⟨[singleton ⟨']', false⟩], none⟩), rest)
  | sets, text => return ((negated, ⟨sets, none⟩), text)

/-- Takes an ASCII class after its opening bracket, if there is one. -/
def takePosix? : List Char → Option (CharSet × List Char)
  | ':' :: text =>
      let (negated, text) :=
        match text with
        | '^' :: rest => (true, rest)
        | _ => (false, text)
      let name := text.takeWhile (· ≠ ':')
      match text.drop name.length with
      | ':' :: ']' :: rest =>
          let name := String.ofList name
          if (posixRanges? name).isSome then some (.posix name negated, rest) else none
      | _ => none
  | _ => none

def takeItem (extended : Bool) : Scan Pattern := fun text =>
  match text with
  | [] => .error .unclosedClass
  | '\\' :: rest => takeEscape extended rest
  | c :: rest => .ok (.literal ⟨c, false⟩, rest)

/-- The set of a character or class; assertions have none. -/
def setOfItem : Pattern → Except Fault CharSet
  | .literal literal => .ok (singleton literal)
  | .set set => .ok set
  | _ => .error .invalidClassItem

/-- The end of an interval, which has to be a character. -/
def endOfInterval : Pattern → Except Fault Literal
  | .literal literal => .ok literal
  | _ => .error .invalidClassRange

/-- The next character that is no layout, looked for no further than past a number sign. -/
def peekPastLayout (extended : Bool) (text : List Char) : Option Char :=
  if !extended then text.head?
  else
    match text.dropWhile isBlank with
    | '#' :: rest => (rest.dropWhile isBlank).head?
    | rest => rest.head?

def takeInterval (extended : Bool) : Scan CharSet := fun text => do
  let (first, text) ← takeItem extended text
  match skipLayout extended text with
  | [] => throw .unclosedClass
  | '-' :: rest =>
      let next := peekPastLayout extended rest
      if next = some ']' || next = some '-' then
        let set ← setOfItem first
        return (set, '-' :: rest)
      else
        let (last, rest) ← takeItem extended (skipLayout extended rest)
        let first ← endOfInterval first
        let last ← endOfInterval last
        if last.char < first.char then throw .invalidClassRange
        return (.range first last, rest)
  | rest =>
      let set ← setOfItem first
      return (set, rest)

/-- The operation that a text starts with, if any. -/
def takeSetOp? : List Char → Option (SetOp × List Char)
  | '&' :: '&' :: rest => some (.intersection, rest)
  | '-' :: '-' :: rest => some (.difference, rest)
  | '~' :: '~' :: rest => some (.symmetricDifference, rest)
  | _ => none

/-- Reads on to the bracket that closes the outermost level. The first argument bounds the
number of steps; the enclosing levels are listed from the inside out, each with the negation
of the bracket inside it.
-/
def takeLevels (extended : Bool)
    : Nat → List (Bool × BracketLevel) → Bool → BracketLevel → Scan Pattern
  | 0, _, _, _, _ => .error .unclosedClass
  | fuel + 1, outer, negated, level, text =>
      match skipLayout extended text with
      | [] => .error .unclosedClass
      | '[' :: rest =>
          match takePosix? rest with
          | some (set, rest) => takeLevels extended fuel outer negated (level.push set) rest
          | none => do
              let ((inner, next), rest) ← takeOpening extended rest
              takeLevels extended fuel ((negated, level) :: outer) inner next rest
      | ']' :: rest =>
          let set := CharSet.bracketed level.result negated
          match outer with
          | [] => .ok (.set set, rest)
          | (negated, level) :: outer =>
              takeLevels extended fuel outer negated (level.push set) rest
      | text =>
          match takeSetOp? text with
          | some (op, rest) => takeLevels extended fuel outer negated (level.operate op) rest
          | none => do
              let (set, rest) ← takeInterval extended text
              takeLevels extended fuel outer negated (level.push set) rest

/-- Takes a set of characters after its opening bracket. -/
def takeClass (extended : Bool) : Scan Pattern := fun text => do
  let ((negated, level), rest) ← takeOpening extended text
  takeLevels extended (text.length + 1) [] negated level rest

end LogIntake.Regex
