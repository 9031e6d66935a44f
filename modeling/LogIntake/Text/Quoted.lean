import LogIntake.Unicode.Property

/-! Quoted text: a value between double quotes in which quotes, backslashes and characters
without a visible form of their own are escaped.
-/

namespace LogIntake.Text.Quoted

open LogIntake.Unicode

/-- Code points that are not printed as they are: separators and all but the assigned
visible ones. The plain blank is the exception.
-/
def invisibleRanges : CodeRanges :=
  CodeRanges.union (GeneralCategory.rangesOf GeneralCategory.separators)
    GeneralCategory.otherRanges

/-- Whether a character shows as itself: visible, and not one that attaches to its
predecessor.
-/
def isPlain (c : Char) : Bool :=
  c = ' '
    || !(invisibleRanges.contains c.toNat || Property.graphemeExtend.contains c.toNat)

/-- The hexadecimal digits of a number, in lower case and without leading zeros. -/
def hexDigits (n : Nat) : List Char :=
  Nat.toDigits 16 n

def escape (c : Char) : List Char :=
  if c = '"' then ['\\', '"']
  else if c = '\\' then ['\\', '\\']
  else if c = '\n' then ['\\', 'n']
  else if c = '\r' then ['\\', 'r']
  else if c = '\t' then ['\\', 't']
  else if c.toNat = 0 then ['\\', '0']
  else if isPlain c then [c]
  else ['\\', 'u', '\x7b'] ++ hexDigits c.toNat ++ ['\x7d']

/-- A text between quotes, its characters escaped. -/
def encode (text : List Char) : List Char :=
  '"' :: text.flatMap escape ++ ['"']

def quote (text : String) : String :=
  String.ofList (encode text.toList)

end LogIntake.Text.Quoted
