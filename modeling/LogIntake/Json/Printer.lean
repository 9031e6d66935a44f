import LogIntake.Json.Value

/-! Printing JSON values: on one line, or indented by two blanks for each level.
-/

namespace LogIntake.Json

/-- The four hexadecimal digits of a code point below 65536, in lower case. -/
def hexQuad (code : Nat) : List Char :=
  let digits := Nat.toDigits 16 code
  List.replicate (4 - digits.length) '0' ++ digits

/-- How a character is written in a string: quotes, backslashes and control characters are
escaped.
-/
def escapeChar (c : Char) : List Char :=
  if c = '"' then ['\\', '"']
  else if c = '\\' then ['\\', '\\']
  else if c.toNat = 0x08 then ['\\', 'b']
  else if c = '\t' then ['\\', 't']
  else if c = '\n' then ['\\', 'n']
  else if c.toNat = 0x0C then ['\\', 'f']
  else if c = '\r' then ['\\', 'r']
  else if c.toNat < 0x20 then '\\' :: 'u' :: hexQuad c.toNat
  else [c]

def quoteText (text : String) : List Char :=
  '"' :: text.toList.flatMap escapeChar ++ ['"']

def Number.text : Number → String
  | .natural n => toString n
  | .negative n => "-" ++ toString n
  | .fraction x => Decimal.text x

def lineBreak (level : Nat) : List Char :=
  '\n' :: List.replicate (2 * level) ' '

mutual

def compactChars : Json → List Char
  | .null => "null".toList
  | .bool b => (if b then "true" else "false").toList
  | .num n => n.text.toList
  | .str text => quoteText text
  | .arr items => '[' :: compactItems items ++ [']']
  | .obj members => '\x7b' :: compactMembers members ++ ['\x7d']

def compactItems : List Json → List Char
  | [] => []
  | [item] => compactChars item
  | item :: rest => compactChars item ++ ',' :: compactItems rest

def compactMembers : List (String × Json) → List Char
  | [] => []
  | [(name, value)] => quoteText name ++ ':' :: compactChars value
  | (name, value) :: rest =>
      quoteText name ++ ':' :: compactChars value ++ ',' :: compactMembers rest

end

mutual

/-- The value with each item and each member on lines of its own. -/
def prettyChars (level : Nat) : Json → List Char
  | .null => "null".toList
  | .bool b => (if b then "true" else "false").toList
  | .num n => n.text.toList
  | .str text => quoteText text
  | .arr [] => ['[', ']']
  | .arr (item :: rest) =>
      '[' :: prettyItems (level + 1) (item :: rest) ++ lineBreak level ++ [']']
  | .obj [] => ['\x7b', '\x7d']
  | .obj (member :: rest) =>
      '\x7b' :: prettyMembers (level + 1) (member :: rest) ++ lineBreak level ++ ['\x7d']

/-- Items, each on a new line, separated by commas. -/
def prettyItems (level : Nat) : List Json → List Char
  | [] => []
  | [item] => lineBreak level ++ prettyChars level item
  | item :: rest =>
      lineBreak level ++ prettyChars level item ++ ',' :: prettyItems level rest

/-- Members, each on a new line, separated by commas. -/
def prettyMembers (level : Nat) : List (String × Json) → List Char
  | [] => []
  | [(name, value)] =>
      lineBreak level ++ quoteText name ++ ':' :: ' ' :: prettyChars level value
  | (name, value) :: rest =>
      lineBreak level ++ quoteText name ++ ':' :: ' ' :: prettyChars level value
        ++ ',' :: prettyMembers level rest

end

def compact (value : Json) : String :=
  String.ofList (compactChars value)

def pretty (value : Json) : String :=
  String.ofList (prettyChars 0 value)

def ofTexts (entries : List (String × String)) : Json :=
  .obj (entries.map fun entry => (entry.1, .str entry.2))

def ofNames (names : List String) : Json :=
  .arr (names.map .str)

end LogIntake.Json
