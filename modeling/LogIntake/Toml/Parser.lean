import LogIntake.Toml.Scalar
import LogIntake.Toml.Tree

/-! Reading a TOML document: values with the arrays and tables inside them, and the lines that
store values and open tables.
-/

namespace LogIntake.Toml

/-- The rest after the characters of a comment, from its line break on. -/
def dropComment : List Char → Except Fault (List Char)
  | [] => .ok []
  | '\n' :: rest => .ok ('\n' :: rest)
  | '\r' :: '\n' :: rest => .ok ('\r' :: '\n' :: rest)
  | c :: rest => if isControl c then .error .unexpectedCharacter else dropComment rest

/-- Drops blanks, line breaks and comments. The first argument bounds the number of steps. -/
def dropLayout : Nat → List Char → Except Fault (List Char)
  | 0, source => .ok source
  | fuel + 1, source =>
      match dropWhite source with
      | '#' :: rest => do dropLayout fuel (← dropComment rest)
      | rest => .ok rest

def nestingLimit : Nat :=
  80

mutual

/-- Takes a value. The first argument bounds the number of steps, the second the nesting. -/
def takeValue : Nat → Nat → Scan Toml
  | 0, _, _ => .error .unexpectedEnd
  | fuel + 1, depth, source =>
      match source with
      | '[' :: rest =>
          if depth = 0 then .error .nestingTooDeep
          else do
            let (items, rest) ← takeItems fuel (depth - 1) [] rest
            return (.array items, rest)
      | '\x7b' :: rest =>
          if depth = 0 then .error .nestingTooDeep
          else do
            let (entries, rest) ← takeMembers fuel (depth - 1) [] rest
            return (.table (tableEntries entries), rest)
      | _ =>
          match takeText? source with
          | some result => do
              let (chars, rest) ← result
              return (.text chars, rest)
          | none => takeScalar source

/-- Takes the items of an array through its closing bracket; the items before come last
first.
-/
def takeItems : Nat → Nat → List Toml → Scan (List Toml)
  | 0, _, _, _ => .error .unexpectedEnd
  | fuel + 1, depth, items, source => do
      match ← dropLayout source.length source with
      | ']' :: rest => return (items.reverse, rest)
      | rest =>
          let (item, rest) ← takeValue fuel depth rest
          match ← dropLayout rest.length rest with
          | ',' :: rest => takeItems fuel depth (item :: items) rest
          | ']' :: rest => return ((item :: items).reverse, rest)
          | [] => throw .unexpectedEnd
          | _ => throw .unexpectedCharacter

/-- Takes the entries of a table between braces through its closing brace. -/
def takeMembers : Nat → Nat → Entries → Scan Entries
  | 0, _, _, _ => .error .unexpectedEnd
  | fuel + 1, depth, entries, source => do
      match ← dropLayout source.length source with
      | '\x7d' :: rest => return (entries, rest)
      | rest =>
          let (parts, rest) ← takeKey (rest.length + 1) rest
          match rest with
          | '=' :: rest =>
              let (value, rest) ← takeValue fuel depth (rest.dropWhile isSpace)
              let entries ←
                storeValue parts.dropLast (parts.getLastD "") value .header entries
              match ← dropLayout rest.length rest with
              | ',' :: rest => takeMembers fuel depth entries rest
              | '\x7d' :: rest => return (entries, rest)
              | [] => throw .unexpectedEnd
              | _ => throw .unexpectedCharacter
          | _ => throw .unexpectedCharacter

end

/-- A document as far as it is read: its tables, and the path of the table that is open. -/
structure Draft where
  entries : Entries
  path : List String
  deriving Repr, Inhabited

def Draft.empty : Draft :=
  ⟨[], []⟩

/-- Takes an assignment and stores its value into the open table. -/
def takeAssignment (draft : Draft) : Scan Draft := fun source => do
  let (parts, rest) ← takeKey (source.length + 1) source
  match rest with
  | '=' :: rest =>
      let rest := rest.dropWhile isSpace
      let (value, rest) ← takeValue (rest.length + 1) nestingLimit rest
      let store := storeValue parts.dropLast (parts.getLastD "") value
      let entries ← changeTable .implied store draft.path .header draft.entries
      return ({ draft with entries }, rest)
  | _ => throw .unexpectedCharacter

/-- Takes the key and the closing brackets of a header, and opens its table. -/
def takeHeader (draft : Draft) (closing : List Char)
    (enter : String → Origin → Entries → Except Fault Entries)
    : Scan Draft := fun source => do
  let source := source.dropWhile isSpace
  let (parts, rest) ← takeKey (source.length + 1) source
  if closing.isPrefixOf rest then
    let entries ←
      changeTable .implied (enter (parts.getLastD "")) parts.dropLast .header draft.entries
    return (⟨entries, parts⟩, rest.drop closing.length)
  else throw .unexpectedCharacter

def takeStatement (draft : Draft) : Scan Draft := fun source =>
  match source with
  | '[' :: '[' :: rest => takeHeader draft [']', ']'] appendTable rest
  | '[' :: rest => takeHeader draft [']'] openTable rest
  | _ => takeAssignment draft source

/-- What follows a statement on its line: at most a comment. -/
def dropLineEnd (source : List Char) : Except Fault (List Char) := do
  let rest ←
    match source.dropWhile isSpace with
    | '#' :: rest => dropComment rest
    | rest => .ok rest
  match rest with
  | [] => return []
  | _ =>
      match afterLineBreak? rest with
      | some rest => return rest
      | none => throw .unexpectedCharacter

/-- Reads statements to the end of the document. The first argument bounds their number. -/
def readStatements : Nat → Draft → List Char → Except Fault Draft
  | 0, draft, _ => .ok draft
  | fuel + 1, draft, source => do
      match ← dropLayout source.length source with
      | [] => return draft
      | rest =>
          let (draft, rest) ← takeStatement draft rest
          readStatements fuel draft (← dropLineEnd rest)

/-- The text without a byte order mark at its front. -/
def dropMark : List Char → List Char
  | c :: rest => if c.toNat = 0xFEFF then rest else c :: rest
  | [] => []

def parse (document : String) : Except Fault Toml := do
  let source := dropMark document.toList
  let draft ← readStatements (source.length + 1) .empty source
  return .table (tableEntries draft.entries)

end LogIntake.Toml
