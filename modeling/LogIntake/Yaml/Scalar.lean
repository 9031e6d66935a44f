import LogIntake.Yaml.Cursor

/-! Scalars of a YAML document: plain ones, ones in quotes, and blocks of lines. Line breaks
inside them are folded: a single one becomes a blank, and of several the first one does not
count.
-/

namespace LogIntake.Yaml

abbrev Scan (α : Type) :=
  Cursor → Except Fault (α × Cursor)

/-! ### Gaps -/

/-- What stands between the words of a scalar: blanks on a line, or line breaks. The first
break is absent if it is escaped.
-/
inductive Gap where
  | blanks (chars : List Char)
  | breaks (first : Option Char) (more : List Char)
  deriving Repr, DecidableEq, Inhabited

namespace Gap

def hasBreak : Gap → Bool
  | .blanks _ => false
  | .breaks _ _ => true

def folded : Gap → List Char
  | .blanks chars => chars
  | .breaks none more => more
  | .breaks (some '\n') [] => [' ']
  | .breaks (some '\n') more => more
  | .breaks (some first) more => first :: more

end Gap

/-- Takes blanks and line breaks that extend a gap. Tabs may not stand in front of a column at
the start of a line. The first argument bounds the number of steps.
-/
def takeGap (indent : Nat) : Nat → Gap → Scan Gap
  | 0, gap, cursor => .ok (gap, cursor)
  | fuel + 1, gap, cursor =>
      match cursor.rest with
      | [] => .ok (gap, cursor)
      | c :: _ =>
          if isBlank c then
            match gap with
            | .blanks chars => takeGap indent fuel (.blanks (chars ++ [c])) (cursor.skip 1)
            | .breaks _ _ =>
                if c = '\t' && cursor.column < indent then .error .invalidIndentation
                else takeGap indent fuel gap (cursor.skip 1)
          else
            match cursor.takeBreak?, gap with
            | none, _ => .ok (gap, cursor)
            | some (c, cursor), .blanks _ => takeGap indent fuel (.breaks (some c) []) cursor
            | some (c, cursor), .breaks first more =>
                takeGap indent fuel (.breaks first (more ++ [c])) cursor

/-! ### Plain scalars -/

/-- Whether a character separates the parts of a collection between brackets. -/
def isFlowMark (c : Char) : Bool :=
  [',', '[', ']', '\x7b', '\x7d'].contains c

/-- Takes the characters of a plain scalar up to a blank, a line break or a mark that ends it;
the characters before come last first.
-/
def takePlainWord (isFlow : Bool) : Nat → List Char → Scan (List Char)
  | 0, word, cursor => .ok (word.reverse, cursor)
  | fuel + 1, word, cursor =>
      match cursor.rest with
      | [] => .ok (word.reverse, cursor)
      | c :: rest =>
          if isBlank c || isBreak c then .ok (word.reverse, cursor)
          else if isFlow && c = ':' && rest.head?.any fun d => isFlowMark d || d = '?' then
            .error .unexpectedCharacter
          else if (c = ':' && isAtGap rest) || (isFlow && isFlowMark c) then
            .ok (word.reverse, cursor)
          else takePlainWord isFlow fuel (c :: word) (cursor.skip 1)

/-- Takes the words of a plain scalar. The result tells, besides the text, whether a line break
follows it. A word counts only if it stands at a column or behind it, unless the scalar is
between brackets.
-/
def takePlainWords (isFlow : Bool) (indent : Nat)
    : Nat → List Char → Gap → Scan (String × Bool)
  | 0, chars, gap, cursor => .ok ((String.ofList chars, gap.hasBreak), cursor)
  | fuel + 1, chars, gap, cursor => do
      if cursor.isAtDocumentMarks || cursor.rest.head? = some '#' then
        return ((String.ofList chars, gap.hasBreak), cursor)
      let (word, cursor) ← takePlainWord isFlow cursor.rest.length [] cursor
      if word.isEmpty then return ((String.ofList chars, gap.hasBreak), cursor)
      let chars := chars ++ gap.folded ++ word
      let (gap, cursor) ← takeGap indent cursor.rest.length (.blanks []) cursor
      if gap = .blanks [] || (!isFlow && cursor.column < indent) then
        return ((String.ofList chars, gap.hasBreak), cursor)
      takePlainWords isFlow indent fuel chars gap cursor

def takePlain (isFlow : Bool) (indent : Nat) : Scan (String × Bool) := fun cursor =>
  takePlainWords isFlow indent cursor.rest.length [] (.blanks []) cursor

/-! ### Scalars in quotes -/

/-- The value of a hexadecimal digit of either case. -/
def hexDigit? (c : Char) : Option Nat :=
  if '0' ≤ c ∧ c ≤ '9' then some (c.toNat - '0'.toNat)
  else if 'a' ≤ c ∧ c ≤ 'f' then some (c.toNat - 'a'.toNat + 10)
  else if 'A' ≤ c ∧ c ≤ 'F' then some (c.toNat - 'A'.toNat + 10)
  else none

/-- The characters that one letter after a backslash stands for. -/
def namedEscapes : List (Char × Nat) :=
  [('0', 0x00), ('a', 0x07), ('b', 0x08), ('t', 0x09), ('\t', 0x09), ('n', 0x0A),
   ('v', 0x0B), ('f', 0x0C), ('r', 0x0D), ('e', 0x1B), (' ', 0x20), ('"', 0x22),
   ('/', 0x2F), ('\\', 0x5C), ('N', 0x85), ('_', 0xA0), ('L', 0x2028), ('P', 0x2029)]

/-- The number of hexadecimal digits after one letter after a backslash. -/
def codeLengths : List (Char × Nat) :=
  [('x', 2), ('u', 4), ('U', 8)]

/-- The character that hexadecimal digits denote. -/
def codeChar? (digits : List Char) : Option Char := do
  let values ← digits.mapM hexDigit?
  let code := values.foldl (fun code value => code * 16 + value) 0
  if h : code.isValidChar then some (Char.ofNatAux code h) else none

def takeEscape : Scan Char := fun cursor =>
  match cursor.rest with
  | _ :: letter :: rest =>
      match namedEscapes.lookup letter, codeLengths.lookup letter with
      | some code, _ => .ok (Char.ofNat code, cursor.skip 2)
      | none, some count =>
          let digits := rest.take count
          match if digits.length = count then codeChar? digits else none with
          | some c => .ok (c, cursor.skip (2 + count))
          | none => .error .invalidEscape
      | none, none => .error .invalidEscape
  | _ => .error .invalidEscape

/-- Takes the characters of a quoted scalar up to a blank, a line break or the closing quote;
the characters before come last first. The result tells, besides them, whether an escaped line
break ends them.
-/
def takeQuotedWord (quote : Char) : Nat → List Char → Scan (List Char × Bool)
  | 0, word, cursor => .ok ((word.reverse, false), cursor)
  | fuel + 1, word, cursor =>
      match cursor.rest with
      | [] => .ok ((word.reverse, false), cursor)
      | c :: rest =>
          if isBlank c || isBreak c then .ok ((word.reverse, false), cursor)
          else if quote = '\'' && c = quote && rest.head? = some quote then
            takeQuotedWord quote fuel (quote :: word) (cursor.skip 2)
          else if c = quote then .ok ((word.reverse, false), cursor)
          else if quote = '"' && c = '\\' then
            if rest.head?.any isBreak then .ok ((word.reverse, true), (cursor.skip 1).skipBreak)
            else do
              let (c, cursor) ← takeEscape cursor
              takeQuotedWord quote fuel (c :: word) cursor
          else takeQuotedWord quote fuel (c :: word) (cursor.skip 1)

/-- Takes the words of a quoted scalar through the closing quote. -/
def takeQuotedWords (quote : Char) : Nat → List Char → Scan String
  | 0, _, _ => .error .unexpectedEnd
  | fuel + 1, chars, cursor => do
      if cursor.isAtDocumentMarks || cursor.rest.isEmpty then throw .unexpectedEnd
      let ((word, isEscaped), cursor) ← takeQuotedWord quote cursor.rest.length [] cursor
      let chars := chars ++ word
      if cursor.rest.head? = some quote then return (String.ofList chars, cursor.skip 1)
      let gap : Gap := if isEscaped then .breaks none [] else .blanks []
      let (gap, cursor) ← takeGap 0 cursor.rest.length gap cursor
      takeQuotedWords quote fuel (chars ++ gap.folded) cursor

/-- Takes a quoted scalar from its opening quote on. -/
def takeQuoted (quote : Char) : Scan String := fun cursor =>
  takeQuotedWords quote cursor.rest.length [] (cursor.skip 1)

/-! ### Blocks of lines -/

/-- What becomes of the line breaks at the end of a block: all are dropped, the first one is
kept, or all are.
-/
inductive Chomping where
  | strip
  | clip
  | keep
  deriving Repr, DecidableEq, Inhabited

def Chomping.ofMark? (mark : Option Char) : Option Chomping :=
  if mark = some '+' then some .keep
  else if mark = some '-' then some .strip
  else none

/-- The digit that a character is, unless it is zero. -/
def increment? (c : Option Char) : Except Fault (Option Nat) :=
  match c with
  | some c =>
      if c = '0' then .error .invalidBlockHeader
      else if c.isDigit then .ok (some (c.toNat - '0'.toNat))
      else .ok none
  | none => .ok none

/-- Takes the marks behind the sign of a block: its chomping and its indentation, in either
order.
-/
def takeBlockMarks : Scan (Chomping × Option Nat) := fun cursor => do
  match Chomping.ofMark? cursor.rest.head? with
  | some chomping =>
      let cursor := cursor.skip 1
      match ← increment? cursor.rest.head? with
      | some count => return ((chomping, some count), cursor.skip 1)
      | none => return ((chomping, none), cursor)
  | none =>
      match ← increment? cursor.rest.head? with
      | some count =>
          let cursor := cursor.skip 1
          match Chomping.ofMark? cursor.rest.head? with
          | some chomping => return ((chomping, some count), cursor.skip 1)
          | none => return ((.clip, some count), cursor)
      | none => return ((.clip, none), cursor)

/-- The place on the line after the sign of a block and its marks, behind which only a comment
may stand.
-/
def skipBlockHeader (cursor : Cursor) : Except Fault Cursor :=
  let cursor := cursor.skipWhile isBlank
  let cursor :=
    if cursor.rest.head? = some '#' then cursor.skipWhile fun c => !isBreak c else cursor
  if isAtLineEnd cursor.rest then .ok cursor.skipBreak else .error .invalidBlockHeader

/-- Takes empty lines, and the indentation of the line behind them as far as it is known. The
result is the breaks with the greatest column that was reached.
-/
def takeEmptyLines (indent : Option Nat) : Nat → List Char → Nat → Scan (List Char × Nat)
  | 0, breaks, widest, cursor => .ok ((breaks, widest), cursor)
  | fuel + 1, breaks, widest, cursor =>
      let spaces := (cursor.rest.takeWhile (· = ' ')).length
      let cursor :=
        cursor.skip
          (match indent with
           | some indent => Nat.min spaces (indent - cursor.column)
           | none => spaces)
      let widest := Nat.max widest cursor.column
      let isIndentation := indent.all fun indent => cursor.column < indent
      if isIndentation && cursor.rest.head? = some '\t' then .error .invalidIndentation
      else
        match cursor.takeBreak? with
        | some (c, cursor) => takeEmptyLines indent fuel (breaks ++ [c]) widest cursor
        | none => .ok ((breaks, widest), cursor)

/-- What a block has so far: its text, the break after its last line if there is one, the
breaks of the empty lines behind it, and whether its last line begins with a blank.
-/
structure Block where
  chars : List Char
  lastBreak : List Char
  emptyLines : List Char
  isIndented : Bool
  deriving Repr, Inhabited

/-- The text before a line of the block: in folded blocks, the break between two lines that
begin with no blank is a blank, or nothing if there are empty lines.
-/
def Block.joined (block : Block) (folds isIndented : Bool) : List Char :=
  let lastBreak :=
    if folds && block.lastBreak = ['\n'] && !block.isIndented && !isIndented then
      if block.emptyLines.isEmpty then [' '] else []
    else block.lastBreak
  block.chars ++ lastBreak ++ block.emptyLines

/-- Takes the lines of a block, all of which begin at a column. -/
def takeBlockLines (folds : Bool) (indent : Nat) : Nat → Block → Scan Block
  | 0, block, cursor => .ok (block, cursor)
  | fuel + 1, block, cursor =>
      if cursor.column ≠ indent || cursor.rest.isEmpty then .ok (block, cursor)
      else do
        let isIndented := cursor.rest.head?.any isBlank
        let (line, cursor) := cursor.takeWhile fun c => !isBreak c
        let chars := block.joined folds isIndented ++ line
        let (lastBreak, cursor) :=
          match cursor.takeBreak? with
          | some (c, cursor) => ([c], cursor)
          | none => ([], cursor)
        let ((emptyLines, _), cursor) ←
          takeEmptyLines (some indent) (cursor.rest.length + 1) [] 0 cursor
        takeBlockLines folds indent fuel ⟨chars, lastBreak, emptyLines, isIndented⟩ cursor

/-- Takes a block from its sign on. The first argument tells whether its lines are folded, the
second is the least column at which its lines may begin.
-/
def takeBlock (folds : Bool) (least : Nat) : Scan String := fun cursor => do
  let ((chomping, increment), cursor) ← takeBlockMarks (cursor.skip 1)
  let cursor ← skipBlockHeader cursor
  let known := increment.map fun count => (least - 1) + count
  let ((emptyLines, widest), cursor) ←
    takeEmptyLines known (cursor.rest.length + 1) [] 0 cursor
  let indent := known.getD (Nat.max (Nat.max widest least) 1)
  let (block, cursor) ←
    takeBlockLines folds indent (cursor.rest.length + 1) ⟨[], [], emptyLines, false⟩ cursor
  let tail :=
    match chomping with
    | .strip => []
    | .clip => block.lastBreak
    | .keep => block.lastBreak ++ block.emptyLines
  return (String.ofList (block.chars ++ tail), cursor)

end LogIntake.Yaml
