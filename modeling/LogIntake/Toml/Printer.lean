import LogIntake.Toml.Text

/-! Writing a TOML document: for each text the quotes that need the fewest escapes, the values
of a table before the tables inside it, and tables under headers.
-/

namespace LogIntake.Toml

/-! ### Texts -/

/-- The length of the longest run of a character. -/
def longestRun (mark : Char) (chars : List Char) : Nat :=
  let step := fun (state : Nat × Nat) (c : Char) =>
    let current := if c = mark then state.1 + 1 else 0
    (current, Nat.max state.2 current)
  (chars.foldl step (0, 0)).2

/-- Whether a character has to be escaped wherever it stands. -/
def needsEscape (c : Char) : Bool :=
  isControl c && c ≠ '\n'

/-- The ways to quote a text. -/
inductive Quoting where
  | basic
  | literal
  | basicLines
  | literalLines
  deriving Repr, DecidableEq, Inhabited

namespace Quoting

def hasLines : Quoting → Bool
  | .basic | .literal => false
  | .basicLines | .literalLines => true

def hasEscapes : Quoting → Bool
  | .basic | .basicLines => true
  | .literal | .literalLines => false

def delimiter : Quoting → List Char
  | .basic => ['"']
  | .literal => ['\'']
  | .basicLines => ['"', '"', '"']
  | .literalLines => ['\'', '\'', '\'']

/-- The way to quote a text: the first one that needs no escapes, and if there is none, one
with escapes.
-/
def choose (chars : List Char) : Quoting :=
  let hasBreak := chars.contains '\n'
  let hasControl := chars.any needsEscape
  let hasEscape := chars.contains '\\'
  let doubles := longestRun '"' chars
  let singles := longestRun '\'' chars
  if !hasControl && !hasEscape && doubles = 0 && !hasBreak then .basic
  else if !hasControl && singles = 0 && !hasBreak then .literal
  else if !hasControl && !hasEscape && doubles ≤ 2 then .basicLines
  else if !hasControl && singles ≤ 2 then .literalLines
  else if hasBreak then .basicLines
  else .basic

end Quoting

/-- The four digits of a code point in hexadecimal notation. -/
def codeDigits (c : Char) : List Char :=
  let digits := (Nat.toDigits 16 c.toNat).map Char.toUpper
  List.replicate (4 - digits.length) '0' ++ digits

/-- The escape of a character, if it has one of its own. -/
def namedEscape? (c : Char) : Option (List Char) :=
  if c = Char.ofNat 0x08 then some ['\\', 'b']
  else if c = '\t' then some ['\\', 't']
  else if c = '\n' then some ['\\', 'n']
  else if c = Char.ofNat 0x0C then some ['\\', 'f']
  else if c = '\r' then some ['\\', 'r']
  else if c = '\\' then some ['\\', '\\']
  else none

/-- The characters between the quotes, where quotes in a row beyond a limit, line breaks unless
they may stand, and control characters are escaped. The second number counts the quotes just
before.
-/
def escapeText (hasLines : Bool) (limit : Nat) : Nat → List Char → List Char
  | _, [] => []
  | quotes, c :: rest =>
      if c = '"' then
        if quotes < limit then '"' :: escapeText hasLines limit (quotes + 1) rest
        else '\\' :: '"' :: escapeText hasLines limit 0 rest
      else if c = '\n' && hasLines then '\n' :: escapeText hasLines limit 0 rest
      else
        match namedEscape? c with
        | some escape => escape ++ escapeText hasLines limit 0 rest
        | none =>
            if isControl c then
              '\\' :: 'u' :: (codeDigits c ++ escapeText hasLines limit 0 rest)
            else c :: escapeText hasLines limit 0 rest

/-- A text in quotes. A text with line breaks begins on a line of its own. -/
def printText (value : String) : String :=
  let chars := value.toList
  let quoting := Quoting.choose chars
  let inner :=
    if quoting.hasEscapes then
      escapeText quoting.hasLines (if quoting.hasLines then 2 else 0) 0 chars
    else chars
  let lead := if quoting.hasLines && chars.contains '\n' then ['\n'] else []
  String.ofList (quoting.delimiter ++ lead ++ inner ++ quoting.delimiter)

/-- A part of a key: bare if it can be, in quotes otherwise. -/
def printKey (name : String) : String :=
  if !name.isEmpty && name.toList.all isBareKeyChar then name
  else
    let chars := name.toList
    match Quoting.choose chars with
    | .literal => String.ofList ('\'' :: chars ++ ['\''])
    | _ => String.ofList ('"' :: escapeText false 0 0 chars ++ ['"'])

/-! ### Values

Integers are written in full, however great they are: a reader takes more of them than fit into 64
bits with a sign.
-/

/-- Items between brackets, each on a line of its own if there are several. -/
def bracketed : List String → String
  | [] => "[]"
  | [item] => "[" ++ item ++ "]"
  | items => "[\n" ++ String.join (items.map fun item => "    " ++ item ++ ",\n") ++ "]"

def braced : List String → String
  | [] => "\x7b\x7d"
  | entries => "\x7b " ++ ", ".intercalate entries ++ " \x7d"

mutual

def printValue : Toml → String
  | .text value => printText value
  | .integer n => toString n
  | .float source | .datetime source => source
  | .boolean b => if b then "true" else "false"
  | .array items => bracketed (printItems items)
  | .table entries => braced (printEntries entries)

def printItems : List Toml → List String
  | [] => []
  | item :: rest => printValue item :: printItems rest

def printEntries : List (String × Toml) → List String
  | [] => []
  | (name, value) :: rest =>
      (printKey name ++ " = " ++ printValue value) :: printEntries rest

end

/-! ### Documents -/

def isTable : Toml → Bool
  | .table _ => true
  | _ => false

/-- Whether a value stands under headers instead of on the right of an equals sign: a table, or
an array of tables only.
-/
def hasHeader : Toml → Bool
  | .table _ => true
  | .array items => !items.isEmpty && items.all isTable
  | _ => false

def assignments (entries : List (String × Toml)) : List String :=
  (printEntries (entries.filter fun entry => !hasHeader entry.2)).map (· ++ "\n")

def headerPath (path : List String) : String :=
  ".".intercalate (path.map printKey)

mutual

/-- The blocks of the tables inside a table, each with its header. -/
def printTables (path : List String) : List (String × Toml) → List String
  | [] => []
  | (name, value) :: rest => printNested (path ++ [name]) value ++ printTables path rest

/-- The blocks of a value that stands under headers. -/
def printNested (path : List String) : Toml → List String
  | .table entries =>
      ("[" ++ headerPath path ++ "]\n" ++ String.join (assignments entries))
        :: printTables path entries
  | .array items =>
      if !items.isEmpty && items.all isTable then printRows path items else []
  | _ => []

def printRows (path : List String) : List Toml → List String
  | [] => []
  | .table entries :: rest =>
      ("[[" ++ headerPath path ++ "]]\n" ++ String.join (assignments entries))
        :: (printTables path entries ++ printRows path rest)
  | _ :: rest => printRows path rest

end

/-- The text of a document: the values first, then the tables, with a blank line between
blocks.
-/
def documentText (entries : List (String × Toml)) : String :=
  let values := assignments entries
  let blocks := printTables [] entries
  "\n".intercalate (if values.isEmpty then blocks else String.join values :: blocks)

end LogIntake.Toml
