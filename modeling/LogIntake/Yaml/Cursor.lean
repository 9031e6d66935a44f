import LogIntake.Yaml.Value

/-! Places in a YAML document: the characters ahead, with the line and the column. Line breaks
come in several forms, all of which count as one break.
-/

namespace LogIntake.Yaml

/-- A place in a document. -/
structure Cursor where
  rest : List Char
  line : Nat
  column : Nat
  index : Nat
  deriving Repr, DecidableEq, Inhabited

def isAllowed (c : Char) : Bool :=
  let code := c.toNat
  c = '\t' || c = '\n' || c = '\r' || (0x20 ≤ code && code ≤ 0x7E) || code = 0x85
    || (0xA0 ≤ code && code ≤ 0xFFFD) || 0x10000 ≤ code

/-- The mark that may stand at the front of a document. -/
def byteOrderMark : Char :=
  Char.ofNat 0xFEFF

/-- The line break with the number 85. -/
def nextLine : Char :=
  Char.ofNat 0x85

def isBlank (c : Char) : Bool :=
  c = ' ' || c = '\t'

/-- Whether a character is a line break that becomes a line feed. -/
def isPlainBreak (c : Char) : Bool :=
  c = '\n' || c = '\r' || c = nextLine

def isBreak (c : Char) : Bool :=
  isPlainBreak c || c.toNat = 0x2028 || c.toNat = 0x2029

/-- Whether a text is at its end, at a line break or at a blank. -/
def isAtGap (source : List Char) : Bool :=
  source.head?.all fun c => isBlank c || isBreak c

/-- Whether a text is at its end or at a line break. -/
def isAtLineEnd (source : List Char) : Bool :=
  source.head?.all isBreak

/-- Whether a character may occur in the name of an anchor or of a directive. -/
def isWordChar (c : Char) : Bool :=
  c.isAlphanum || c = '_' || c = '-'

/-- Whether a text begins with three marks that begin or end a document. -/
def isAtMarks (mark : Char) (source : List Char) : Bool :=
  [mark, mark, mark].isPrefixOf source && isAtGap (source.drop 3)

namespace Cursor

def start (document : List Char) : Cursor :=
  ⟨document, 0, 0, 0⟩

/-- The place a number of characters further on the same line. -/
def skip (count : Nat) (cursor : Cursor) : Cursor :=
  { cursor with
    rest := cursor.rest.drop count, column := cursor.column + count,
    index := cursor.index + count }

/-- The place after the characters that satisfy a predicate, none of which is a line break. -/
def skipWhile (accept : Char → Bool) (cursor : Cursor) : Cursor :=
  cursor.skip (cursor.rest.takeWhile accept).length

/-- The place after characters on the same line, with these characters. -/
def takeWhile (accept : Char → Bool) (cursor : Cursor) : List Char × Cursor :=
  let chars := cursor.rest.takeWhile accept
  (chars, cursor.skip chars.length)

/-- The place on the next line, after a break of some characters. -/
def nextLine (count : Nat) (cursor : Cursor) : Cursor :=
  ⟨cursor.rest.drop count, cursor.line + 1, 0, cursor.index + count⟩

/-- Takes a line break, if there is one, with the character that it stands for. -/
def takeBreak? (cursor : Cursor) : Option (Char × Cursor) :=
  match cursor.rest with
  | '\r' :: '\n' :: _ => some ('\n', cursor.nextLine 2)
  | c :: _ =>
      if isPlainBreak c then some ('\n', cursor.nextLine 1)
      else if isBreak c then some (c, cursor.nextLine 1)
      else none
  | [] => none

/-- The place after a line break, if there is one. -/
def skipBreak (cursor : Cursor) : Cursor :=
  match cursor.takeBreak? with
  | some (_, cursor) => cursor
  | none => cursor

def isAtDocumentMarks (cursor : Cursor) : Bool :=
  cursor.column = 0 && (isAtMarks '-' cursor.rest || isAtMarks '.' cursor.rest)

end Cursor

end LogIntake.Yaml
