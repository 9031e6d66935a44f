import LogIntake.Label.Name

/-! Replacement templates. A dollar sign starts a reference to a capturing group, by number or
by name, with or without braces; two dollar signs stand for one.
-/

namespace LogIntake.Regex

/-- A part of a template. -/
inductive TemplatePart where
  | text (chars : List Char)
  | group (name : List Char)
  deriving Repr, DecidableEq, Inhabited

/-- The part that a text after a dollar sign starts with, and the text after it. A dollar sign
that starts no reference stands for itself.
-/
def takeReference (text : List Char) : TemplatePart × List Char :=
  match text with
  | '$' :: rest => (.text ['$'], rest)
  | '\x7b' :: rest =>
      let name := rest.takeWhile (· ≠ '\x7d')
      match rest.drop name.length with
      | _ :: after => (.group name, after)
      | [] => (.text ['$'], text)
  | _ =>
      let name := text.takeWhile Label.isNameChar
      if name.isEmpty then (.text ['$'], text) else (.group name, text.drop name.length)

/-- Splits a template into its parts. The first argument bounds their number. -/
def takeParts : Nat → List Char → List TemplatePart
  | 0, _ => []
  | _ + 1, [] => []
  | fuel + 1, c :: rest =>
      if c = '$' then
        let (part, rest) := takeReference rest
        part :: takeParts fuel rest
      else
        let text := (c :: rest).takeWhile (· ≠ '$')
        .text text :: takeParts fuel ((c :: rest).drop text.length)

def templateParts (template : List Char) : List TemplatePart :=
  takeParts template.length template

def maxGroupNumber : Nat :=
  Nat.pow 2 64 - 1

/-- The number that a reference states, if it states one. A plus sign may precede it. -/
def groupNumber? (name : List Char) : Option Nat :=
  let digits :=
    match name with
    | '+' :: rest => rest
    | _ => name
  let value := digits.foldl (fun value c => value * 10 + (c.toNat - '0'.toNat)) 0
  if !digits.isEmpty && digits.all Char.isDigit && value ≤ maxGroupNumber then some value
  else none

/-- The text of a template, given the texts of the groups. -/
def expandTemplate (group : List Char → List Char) (template : List Char) : List Char :=
  (templateParts template).flatMap fun part =>
    match part with
    | .text chars => chars
    | .group name => group name

end LogIntake.Regex
