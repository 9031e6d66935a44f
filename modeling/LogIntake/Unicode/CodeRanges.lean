/-! Sets of code points as ascending lists of intervals, and the hexadecimal text in which
the character tables of this library are written.
Membership stops at the first interval above the code point, so common characters are cheap.
-/

namespace LogIntake.Unicode

/-- One interval of code points, both ends included. -/
structure CodeRange where
  first : Nat
  last : Nat
  deriving Repr, DecidableEq, Inhabited

/-- Intervals in ascending order that neither overlap nor touch. -/
abbrev CodeRanges :=
  List CodeRange

def maxCodePoint : Nat :=
  0x10FFFF

namespace CodeRanges

/-- Whether a code point lies in one of the ascending intervals. -/
def contains : CodeRanges → Nat → Bool
  | [], _ => false
  | range :: rest, code =>
      if code < range.first then false
      else if code ≤ range.last then true
      else contains rest code

/-- Joins an interval onto an ascending list whose first interval does not start before it. -/
def attach (range : CodeRange) : CodeRanges → CodeRanges
  | [] => [range]
  | next :: rest =>
      if next.first ≤ range.last + 1 then
        attach ⟨range.first, max range.last next.last⟩ rest
      else
        range :: next :: rest

/-- Brings arbitrary intervals into ascending, non-touching form; empty intervals vanish. -/
def normalize (ranges : List CodeRange) : CodeRanges :=
  ((ranges.filter fun range => range.first ≤ range.last).mergeSort
    fun left right => left.first ≤ right.first).foldr attach []

def union (left right : CodeRanges) : CodeRanges :=
  normalize (left ++ right)

/-- The complement from a given code point upwards. -/
def complementFrom (start : Nat) : CodeRanges → CodeRanges
  | [] => if start ≤ maxCodePoint then [⟨start, maxCodePoint⟩] else []
  | range :: rest =>
      if start < range.first then
        ⟨start, range.first - 1⟩ :: complementFrom (range.last + 1) rest
      else
        complementFrom (range.last + 1) rest

def complement (ranges : CodeRanges) : CodeRanges :=
  complementFrom 0 ranges

/-- The code points in both sets, by complementing the union of the complements. -/
def inter (left right : CodeRanges) : CodeRanges :=
  complement (union (complement left) (complement right))

/-- The code points of the first set outside the second. -/
def diff (left right : CodeRanges) : CodeRanges :=
  inter left (complement right)

/-- The code points in exactly one of the two sets. -/
def symmDiff (left right : CodeRanges) : CodeRanges :=
  diff (union left right) (inter left right)

def hexDigit? (c : Char) : Option Nat :=
  if '0' ≤ c ∧ c ≤ '9' then some (c.toNat - '0'.toNat)
  else if 'a' ≤ c ∧ c ≤ 'f' then some (c.toNat - 'a'.toNat + 10)
  else none

/-- The value of a run of hexadecimal digits; other characters are skipped. -/
def hexValue (text : List Char) : Nat :=
  text.foldl (fun value c => ((hexDigit? c).map (value * 16 + ·)).getD value) 0

/-- Every second code point from first to last, as single-element intervals. -/
def alternating (first last : Nat) : List CodeRange :=
  (List.range ((last - first) / 2 + 1)).map fun i => ⟨first + 2 * i, first + 2 * i⟩

/-- One entry of a table: a code point, an interval (first-last), or every second code
point of an interval (first/last).
-/
def ofEntry (entry : List Char) : List CodeRange :=
  let first := entry.takeWhile fun c => c ≠ '-' ∧ c ≠ '/'
  match entry.drop first.length with
  | '-' :: last => [⟨hexValue first, hexValue last⟩]
  | '/' :: last => alternating (hexValue first) (hexValue last)
  | _ => [⟨hexValue first, hexValue first⟩]

/-- Reads a table of ascending entries, given as lines in which blanks separate them. -/
def ofTable (lines : List String) : CodeRanges :=
  lines.flatMap fun line => (line.toList.splitOn ' ').flatMap ofEntry

end CodeRanges

end LogIntake.Unicode
