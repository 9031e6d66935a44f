import LogIntake.Regex.Search
import LogIntake.Regex.Size
import LogIntake.Regex.Template

/-! Compiled regular expressions: testing a text, finding the groups of a match, and replacing
matches by a template.
-/

namespace LogIntake

open Regex

/-- A compiled regular expression. -/
structure Regex where
  program : Regex.Program
  captures : Nat
  names : List (String × Nat)
  deriving Repr, Inhabited

/-- A match: the text that was searched and the places that were noted. -/
structure Regex.Match where
  text : List Char
  slots : Regex.Slots
  deriving Repr, DecidableEq, Inhabited

namespace Regex

def compile (pattern : String) : Except Error LogIntake.Regex := do
  let reading ← (parse pattern.toList).mapError .fault
  let (expr, _) ← (reading.pattern.toExpr .initial).mapError .fault
  if sizeLimit < expr.size then throw .tooLarge
  return ⟨expr.program, reading.captures, reading.names⟩

/-- The leftmost match that starts at a given number of characters or later. -/
def findFrom (regex : LogIntake.Regex) (text : List Char) (start : Nat) : Option Match :=
  let rest := text.drop start
  let place : Place :=
    ⟨start, if start = 0 then none else text[start - 1]?, rest.head?⟩
  (search regex.program (2 * regex.captures + 2) place rest).map fun slots => ⟨text, slots⟩

def find (regex : LogIntake.Regex) (text : List Char) : Option Match :=
  regex.findFrom text 0

def isMatch (regex : LogIntake.Regex) (text : List Char) : Bool :=
  (regex.find text).isSome

def Match.span? (found : Match) (group : Nat) : Option (Nat × Nat) := do
  let first ← (← found.slots[2 * group]?)
  let last ← (← found.slots[2 * group + 1]?)
  return (first, last)

/-- The text of a group, empty if the group takes no part in the match. -/
def Match.group (found : Match) (group : Nat) : List Char :=
  match found.span? group with
  | some (first, last) => (found.text.drop first).take (last - first)
  | none => []

/-- The text of the group that a reference names. -/
def Match.reference (found : Match) (names : List (String × Nat)) (name : List Char)
    : List Char :=
  match groupNumber? name with
  | some group => found.group group
  | none => ((names.lookup (String.ofList name)).map found.group).getD []

def expand (regex : LogIntake.Regex) (found : Match) (template : List Char) : List Char :=
  expandTemplate (found.reference regex.names) template

/-- The next match from a place on. A match of no characters does not count where the match
before it ended.
-/
def nextMatch (regex : LogIntake.Regex) (text : List Char) (start : Nat) (last : Option Nat)
    : Option (Match × Nat × Nat) := do
  let found ← regex.findFrom text start
  let (first, finish) ← found.span? 0
  if first = finish && last = some finish then
    if text.length < start + 1 then none
    else
      let found ← regex.findFrom text (start + 1)
      let (first, finish) ← found.span? 0
      return (found, first, finish)
  else return (found, first, finish)

/-- Replaces the matches from a place on. The first argument bounds their number. -/
def replaceFrom (regex : LogIntake.Regex) (template text : List Char)
    : Nat → Nat → Option Nat → List Char
  | 0, start, _ => text.drop start
  | fuel + 1, start, last =>
      match regex.nextMatch text start last with
      | none => text.drop start
      | some (found, first, finish) =>
          (text.drop start).take (first - start) ++ regex.expand found template
            ++ replaceFrom regex template text fuel finish (some finish)

/-- Replaces all matches in a text by a template. -/
def replaceAll (regex : LogIntake.Regex) (text template : List Char) : List Char :=
  regex.replaceFrom template text (text.length + 1) 0 none

end Regex

end LogIntake
