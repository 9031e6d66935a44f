import LogIntake.Yaml.Scalar

/-! The tokens of a YAML document. Indentation opens and closes block collections. A key of one
line shows itself only by the colon behind it, so the place where one may have begun is kept in
mind, one for each level of brackets.
-/

namespace LogIntake.Yaml

/-- A token of a document. -/
inductive Token where
  | versionDirective (major minor : Nat)
  | tagDirective (handle lead : String)
  | documentStart
  | documentEnd
  | blockSequenceStart
  | blockMappingStart
  | blockEnd
  | flowSequenceStart
  | flowSequenceEnd
  | flowMappingStart
  | flowMappingEnd
  | blockEntry
  | flowEntry
  | key
  | value
  | alias (name : String)
  | anchor (name : String)
  | tag (handle suffix : String)
  | scalar (style : ScalarStyle) (text : String)
  deriving Repr, DecidableEq, Inhabited

/-- A place where a key may have begun: the number of tokens before it, where it stands, and
whether there has to be a key.
-/
structure KeyStart where
  position : Nat
  line : Nat
  column : Nat
  index : Nat
  isRequired : Bool
  deriving Repr, DecidableEq, Inhabited

/-- How far a document is read: the place, the tokens before it with the last one first, the
columns of the open block collections with the innermost first, for each level of brackets the
place where a key may have begun, and whether one may begin here.
-/
structure Scanner where
  cursor : Cursor
  tokens : List Token
  indents : List Nat
  keys : List (Option KeyStart)
  keyAllowed : Bool
  deriving Repr, Inhabited

namespace Scanner

def start (document : List Char) : Scanner :=
  ⟨.start document, [], [], [none], true⟩

def isFlow (scanner : Scanner) : Bool :=
  1 < scanner.keys.length

/-- The least column behind the one of the innermost block collection. -/
def least (scanner : Scanner) : Nat :=
  match scanner.indents with
  | [] => 0
  | indent :: _ => indent + 1

def push (scanner : Scanner) (token : Token) : Scanner :=
  { scanner with tokens := token :: scanner.tokens }

/-- Adds a token and moves on over its characters, all of which are on one line. -/
def pushOver (scanner : Scanner) (count : Nat) (token : Token) : Scanner :=
  { scanner.push token with cursor := scanner.cursor.skip count }

/-- Adds a token behind the first ones, as many as a number says. -/
def insert (scanner : Scanner) (position : Nat) (token : Token) : Scanner :=
  let later := scanner.tokens.length - position
  { scanner with
    tokens := scanner.tokens.take later ++ token :: scanner.tokens.drop later }

def allowKey (allowed : Bool) (scanner : Scanner) : Scanner :=
  { scanner with keyAllowed := allowed }

/-! ### Indentation -/

/-- The columns of block collections that end before a column, and the others. -/
def endedBefore (column : Nat) : List Nat → Nat × List Nat
  | [] => (0, [])
  | indent :: rest =>
      if column < indent then
        let (count, rest) := endedBefore column rest
        (count + 1, rest)
      else (0, indent :: rest)

/-- Closes the block collections that end before a column. -/
def unroll (column : Nat) (scanner : Scanner) : Scanner :=
  if scanner.isFlow then scanner
  else
    let (count, indents) := endedBefore column scanner.indents
    { scanner with
      tokens := List.replicate count .blockEnd ++ scanner.tokens, indents := indents }

def unrollAll (scanner : Scanner) : Scanner :=
  { scanner with
    tokens := List.replicate scanner.indents.length .blockEnd ++ scanner.tokens,
    indents := [] }

/-- Opens a block collection at a column unless it is open already. Its token goes behind the
first ones, as many as the position says.
-/
def roll (column position : Nat) (token : Token) (scanner : Scanner) : Scanner :=
  if scanner.isFlow || column < scanner.least then scanner
  else { scanner.insert position token with indents := column :: scanner.indents }

def rollHere (token : Token) (scanner : Scanner) : Scanner :=
  scanner.roll scanner.cursor.column scanner.tokens.length token

/-! ### Keys -/

/-- Whether a key that began at a place cannot end here any more: it has to be on one line and
not too long.
-/
def isStale (cursor : Cursor) (start : KeyStart) : Bool :=
  start.line < cursor.line || start.index + 1024 < cursor.index

/-- Forgets the keys that cannot end here any more. -/
def dropStale (scanner : Scanner) : Except Fault Scanner := do
  let keys ← scanner.keys.mapM fun key =>
    match key with
    | some start =>
        if isStale scanner.cursor start then
          if start.isRequired then .error Fault.missingColon else .ok none
        else .ok (some start)
    | none => .ok none
  return { scanner with keys := keys }

/-- Sets where the key of the current level of brackets may have begun; an earlier place that
has to be a key must not be forgotten.
-/
def setKey (key : Option KeyStart) (scanner : Scanner) : Except Fault Scanner :=
  match scanner.keys with
  | some start :: rest =>
      if start.isRequired then .error .missingColon
      else .ok { scanner with keys := key :: rest }
  | _ :: rest => .ok { scanner with keys := key :: rest }
  | [] => .ok scanner

def dropKey (scanner : Scanner) : Except Fault Scanner :=
  scanner.setKey none

def saveKey (scanner : Scanner) : Except Fault Scanner :=
  if scanner.keyAllowed then
    let cursor := scanner.cursor
    let isRequired := !scanner.isFlow && scanner.indents.head? = some cursor.column
    scanner.setKey
      (some ⟨scanner.tokens.length, cursor.line, cursor.column, cursor.index, isRequired⟩)
  else .ok scanner

/-! ### Blanks and comments -/

/-- The place of the next token. Line breaks outside brackets allow a key; a tab is a blank
only where no key may begin. The first argument bounds the number of steps.
-/
def skipLayout : Nat → Scanner → Scanner
  | 0, scanner => scanner
  | fuel + 1, scanner =>
      let tabs := scanner.isFlow || !scanner.keyAllowed
      let cursor := scanner.cursor.skipWhile fun c => c = ' ' || (tabs && c = '\t')
      let cursor :=
        if cursor.rest.head? = some '#' then cursor.skipWhile fun c => !isBreak c
        else cursor
      match cursor.takeBreak? with
      | some (_, cursor) =>
          skipLayout fuel { scanner with
            cursor := cursor, keyAllowed := scanner.keyAllowed || !scanner.isFlow }
      | none => { scanner with cursor := cursor }

/-! ### Directives -/

def takeNumber? (cursor : Cursor) : Option (Nat × Cursor) :=
  let (digits, cursor) := cursor.takeWhile Char.isDigit
  if digits.isEmpty || 9 < digits.length then none
  else some (digits.foldl (fun n c => n * 10 + (c.toNat - '0'.toNat)) 0, cursor)

def takeVersion? (cursor : Cursor) : Option (Token × Cursor) := do
  let (major, cursor) ← takeNumber? (cursor.skipWhile isBlank)
  if cursor.rest.head? = some '.' then
    let (minor, cursor) ← takeNumber? (cursor.skip 1)
    return (.versionDirective major minor, cursor)
  else none

def isTagChar (c : Char) : Bool :=
  isWordChar c || ";/?:@&=+$.!~*'()%".toList.contains c

/-- The bytes of a tag that stand for themselves or as two digits after a percent sign. -/
def unescapeTag : Nat → List Char → Option (List Char)
  | _, [] => some []
  | 0, _ => none
  | fuel + 1, '%' :: high :: low :: rest =>
      (codeChar? [high, low]).bind fun c => (unescapeTag fuel rest).map (c :: ·)
  | fuel + 1, c :: rest => if c = '%' then none else (unescapeTag fuel rest).map (c :: ·)

/-- Takes the characters of a tag, which must not be none. -/
def takeTagChars? (accept : Char → Bool) (lead : List Char) (cursor : Cursor)
    : Option (String × Cursor) := do
  let (chars, cursor) := cursor.takeWhile accept
  let chars ← unescapeTag chars.length chars
  if lead.isEmpty && chars.isEmpty then none
  else some (String.ofList (lead ++ chars), cursor)

/-- Takes the handle of a tag: an exclamation mark, and a word with a second one if there are
such.
-/
def takeHandle? (cursor : Cursor) : Option (List Char × Cursor) :=
  if cursor.rest.head? = some '!' then
    let (word, cursor) := (cursor.skip 1).takeWhile isWordChar
    if cursor.rest.head? = some '!' then some ('!' :: word ++ ['!'], cursor.skip 1)
    else some ('!' :: word, cursor)
  else none

/-- Takes the handle and the tag that it abbreviates. -/
def takeTagDirective? (cursor : Cursor) : Option (Token × Cursor) := do
  let (handle, cursor) ← takeHandle? (cursor.skipWhile isBlank)
  if (handle.length = 1 || handle.getLast? = some '!') && cursor.rest.head?.any isBlank then
    let isLeadChar := fun c => isTagChar c || [',', '[', ']'].contains c
    let (lead, cursor) ← takeTagChars? isLeadChar [] (cursor.skipWhile isBlank)
    if isAtGap cursor.rest then
      some (.tagDirective (String.ofList handle) lead, cursor)
    else none
  else none

/-- Takes a directive behind its percent sign, up to the end of its line. -/
def takeDirective : Scan Token := fun cursor =>
  let (name, cursor) := cursor.takeWhile isWordChar
  let result :=
    if !isAtGap cursor.rest then none
    else if name = "YAML".toList then takeVersion? cursor
    else if name = "TAG".toList then takeTagDirective? cursor
    else none
  match result with
  | some (token, cursor) =>
      match skipBlockHeader cursor with
      | .ok cursor => .ok (token, cursor)
      | .error _ => .error .invalidDirective
  | none => .error .invalidDirective

/-! ### Anchors and tags -/

def takeAnchor : Scan String := fun cursor =>
  let (name, cursor) := cursor.takeWhile isWordChar
  let isEnded :=
    isAtGap cursor.rest
      || cursor.rest.head?.any fun c => "?:,]\x7d%@".toList.contains c || c = Char.ofNat 0x60
  if name.isEmpty || !isEnded then .error .invalidAnchor
  else .ok (String.ofList name, cursor)

/-- Takes a tag that is given in full between angle brackets. -/
def takeFullTag? (cursor : Cursor) : Option (Token × Cursor) := do
  let accept := fun c => isTagChar c || [',', '[', ']'].contains c
  let (name, cursor) ← takeTagChars? accept [] (cursor.skip 2)
  if cursor.rest.head? = some '>' then some (.tag "" name, cursor.skip 1) else none

def takeShortTag? (cursor : Cursor) : Option (Token × Cursor) := do
  let (handle, after) ← takeHandle? cursor
  if 1 < handle.length && handle.getLast? = some '!' then
    let (suffix, cursor) ← takeTagChars? isTagChar [] after
    some (.tag (String.ofList handle) suffix, cursor)
  else
    let (suffix, cursor) ←
      match takeTagChars? isTagChar (handle.drop 1) after with
      | some result => some result
      | none => if handle.length = 1 then some ("", after) else none
    if suffix.isEmpty then some (.tag "" "!", cursor) else some (.tag "!" suffix, cursor)

/-- Takes a tag, behind which a blank has to stand, or a comma between brackets. -/
def takeTag (isFlow : Bool) : Scan Token := fun cursor =>
  let result :=
    if cursor.rest[1]? = some '<' then takeFullTag? cursor else takeShortTag? cursor
  match result with
  | some (token, cursor) =>
      if isAtGap cursor.rest || (isFlow && cursor.rest.head? = some ',') then
        .ok (token, cursor)
      else .error .invalidTag
  | none => .error .invalidTag

/-! ### Tokens -/

/-- Adds a token that a scan takes. -/
def take (scan : Scan Token) (scanner : Scanner) : Except Fault Scanner := do
  let (token, cursor) ← scan scanner.cursor
  return { scanner.push token with cursor := cursor }

/-- Takes a directive, or marks that begin or end a document. -/
def takeDocumentToken (scan : Scan Token) (scanner : Scanner) : Except Fault Scanner := do
  let scanner ← scanner.unrollAll.dropKey
  (scanner.allowKey false).take scan

def openFlow (token : Token) (scanner : Scanner) : Except Fault Scanner := do
  let scanner ← scanner.saveKey
  return ({ scanner with keys := none :: scanner.keys }.allowKey true).pushOver 1 token

def closeFlow (token : Token) (scanner : Scanner) : Except Fault Scanner := do
  let scanner ← scanner.dropKey
  let keys := if scanner.isFlow then scanner.keys.tail else scanner.keys
  return ({ scanner with keys := keys }.allowKey false).pushOver 1 token

/-- Takes the comma between the entries of a collection. -/
def takeFlowEntry (scanner : Scanner) : Except Fault Scanner := do
  let scanner ← scanner.dropKey
  return (scanner.allowKey true).pushOver 1 .flowEntry

/-- Takes the dash before an entry of a block sequence. -/
def takeBlockEntry (scanner : Scanner) : Except Fault Scanner := do
  if !scanner.isFlow && !scanner.keyAllowed then throw .misplacedEntry
  let scanner ← (scanner.rollHere .blockSequenceStart).dropKey
  return (scanner.allowKey true).pushOver 1 .blockEntry

def takeKeyMark (scanner : Scanner) : Except Fault Scanner := do
  if !scanner.isFlow && !scanner.keyAllowed then throw .misplacedKey
  let scanner ← (scanner.rollHere .blockMappingStart).dropKey
  return (scanner.allowKey (!scanner.isFlow)).pushOver 1 .key

def takeValueMark (scanner : Scanner) : Except Fault Scanner :=
  match scanner.keys with
  | some start :: rest =>
      let scanner := { scanner with keys := none :: rest }.insert start.position .key
      let scanner := scanner.roll start.column start.position .blockMappingStart
      .ok ((scanner.allowKey false).pushOver 1 .value)
  | _ =>
      if !scanner.isFlow && !scanner.keyAllowed then .error .misplacedValue
      else
        let scanner := scanner.rollHere .blockMappingStart
        .ok ((scanner.allowKey (!scanner.isFlow)).pushOver 1 .value)

def takeKeyed (scan : Scan Token) (scanner : Scanner) : Except Fault Scanner := do
  let scanner ← scanner.saveKey
  (scanner.allowKey false).take scan

def takeBlockScalar (folds : Bool) (scanner : Scanner) : Except Fault Scanner := do
  let scanner ← scanner.dropKey
  let style : ScalarStyle := if folds then .folded else .literal
  (scanner.allowKey true).take fun cursor => do
    let (chars, cursor) ← Yaml.takeBlock folds scanner.least cursor
    return (.scalar style chars, cursor)

def takeQuotedScalar (quote : Char) (scanner : Scanner) : Except Fault Scanner :=
  scanner.takeKeyed fun cursor => do
    let (chars, cursor) ← takeQuoted quote cursor
    return (.scalar .quoted chars, cursor)

/-- Takes a plain scalar. A line break behind it allows a key. -/
def takePlainScalar (scanner : Scanner) : Except Fault Scanner := do
  let scanner ← scanner.saveKey
  let ((chars, hasBreak), cursor) ← takePlain scanner.isFlow scanner.least scanner.cursor
  return ({ scanner with cursor := cursor }.allowKey hasBreak).push (.scalar .plain chars)

def takeAnchorToken (token : String → Token) (scanner : Scanner) : Except Fault Scanner :=
  scanner.takeKeyed fun cursor => do
    let (name, cursor) ← takeAnchor (cursor.skip 1)
    return (token name, cursor)

def isIndicator (c : Char) : Bool :=
  "-?:,[]\x7b\x7d#&*!|>'\"%@".toList.contains c || c = Char.ofNat 0x60

/-- Whether a plain scalar begins with a character in front of a text. -/
def beginsPlain (isFlow : Bool) (c : Char) (rest : List Char) : Bool :=
  !(isIndicator c || isBlank c || isBreak c) || (c = '-' && !rest.head?.any isBlank)
    || (!isFlow && (c = '?' || c = ':') && !isAtGap rest)

/-- Takes the token that begins with a character in front of a text. -/
def takeToken (c : Char) (rest : List Char) (scanner : Scanner) : Except Fault Scanner :=
  let cursor := scanner.cursor
  let isFlow := scanner.isFlow
  if cursor.column = 0 && c = '%' then
    scanner.takeDocumentToken fun cursor => takeDirective (cursor.skip 1)
  else if cursor.column = 0 && isAtMarks '-' cursor.rest then
    scanner.takeDocumentToken fun cursor => .ok (.documentStart, cursor.skip 3)
  else if cursor.column = 0 && isAtMarks '.' cursor.rest then
    scanner.takeDocumentToken fun cursor => .ok (.documentEnd, cursor.skip 3)
  else if c = '[' then scanner.openFlow .flowSequenceStart
  else if c = '\x7b' then scanner.openFlow .flowMappingStart
  else if c = ']' then scanner.closeFlow .flowSequenceEnd
  else if c = '\x7d' then scanner.closeFlow .flowMappingEnd
  else if c = ',' then scanner.takeFlowEntry
  else if c = '-' && isAtGap rest then scanner.takeBlockEntry
  else if c = '?' && (isFlow || isAtGap rest) then scanner.takeKeyMark
  else if c = ':' && (isFlow || isAtGap rest) then scanner.takeValueMark
  else if c = '*' then scanner.takeAnchorToken .alias
  else if c = '&' then scanner.takeAnchorToken .anchor
  else if c = '!' then scanner.takeKeyed (takeTag isFlow)
  else if c = '|' && !isFlow then scanner.takeBlockScalar false
  else if c = '>' && !isFlow then scanner.takeBlockScalar true
  else if c = '\'' || c = '"' then scanner.takeQuotedScalar c
  else if beginsPlain isFlow c rest then scanner.takePlainScalar
  else .error .unexpectedCharacter

/-- Takes all tokens. The first argument bounds their number. -/
def takeTokens : Nat → Scanner → Except Fault (List Token)
  | 0, _ => .error .unexpectedEnd
  | fuel + 1, scanner => do
      let scanner ← (scanner.skipLayout (scanner.cursor.rest.length + 1)).dropStale
      match scanner.cursor.rest with
      | [] =>
          let scanner ← scanner.unrollAll.dropKey
          return scanner.tokens.reverse
      | c :: rest =>
          let scanner ← (scanner.unroll scanner.cursor.column).takeToken c rest
          takeTokens fuel scanner

end Scanner

def tokens (document : String) : Except Fault (List Token) :=
  let chars := document.toList
  if !chars.all isAllowed then .error .controlCharacter
  else
    let source := if chars.head? = some byteOrderMark then chars.drop 1 else chars
    Scanner.takeTokens (source.length + 1) (.start source)

end LogIntake.Yaml
