import LogIntake.Toml.Value

/-! Strings of a TOML document: basic strings with escapes and literal strings without, each
on one line or on several, and keys.
-/

namespace LogIntake.Toml

abbrev Scan (α : Type) :=
  List Char → Except Fault (α × List Char)

/-- Whether a character may not occur in strings and comments: control characters other than
the tab.
-/
def isControl (c : Char) : Bool :=
  (c.toNat < 0x20 && c ≠ '\t') || c.toNat = 0x7F

/-- Whether a character is a blank within a line. -/
def isSpace (c : Char) : Bool :=
  c = ' ' || c = '\t'

/-- The rest after a line break, if the text starts with one. -/
def afterLineBreak? : List Char → Option (List Char)
  | '\n' :: rest => some rest
  | '\r' :: '\n' :: rest => some rest
  | _ => none

/-- The value of a hexadecimal digit of either case. -/
def hexDigit? (c : Char) : Option Nat :=
  if '0' ≤ c ∧ c ≤ '9' then some (c.toNat - '0'.toNat)
  else if 'a' ≤ c ∧ c ≤ 'f' then some (c.toNat - 'a'.toNat + 10)
  else if 'A' ≤ c ∧ c ≤ 'F' then some (c.toNat - 'A'.toNat + 10)
  else none

/-- Takes the character that a number of hexadecimal digits denotes. -/
def takeCode : Nat → Nat → Scan Char
  | 0, code, rest =>
      if h : code.isValidChar then .ok (Char.ofNatAux code h, rest) else .error .invalidEscape
  | _ + 1, _, [] => .error .invalidEscape
  | count + 1, code, c :: rest =>
      match hexDigit? c with
      | some digit => takeCode count (code * 16 + digit) rest
      | none => .error .invalidEscape

def takeEscape : Scan Char
  | [] => .error .invalidEscape
  | c :: rest =>
      match c with
      | 'b' => .ok (Char.ofNat 0x08, rest)
      | 't' => .ok ('\t', rest)
      | 'n' => .ok ('\n', rest)
      | 'f' => .ok (Char.ofNat 0x0C, rest)
      | 'r' => .ok ('\r', rest)
      | 'e' => .ok (Char.ofNat 0x1B, rest)
      | '"' => .ok ('"', rest)
      | '\\' => .ok ('\\', rest)
      | 'x' => takeCode 2 0 rest
      | 'u' => takeCode 4 0 rest
      | 'U' => takeCode 8 0 rest
      | _ => .error .invalidEscape

/-- Takes the characters of a basic string on one line, through the closing quote. The first
argument bounds the number of steps.
-/
def takeBasic : Nat → List Char → Scan String
  | 0, _, _ => .error .invalidText
  | _ + 1, _, [] => .error .invalidText
  | fuel + 1, chars, c :: rest =>
      if c = '"' then .ok (String.ofList chars.reverse, rest)
      else if c = '\\' then
        match takeEscape rest with
        | .ok (c, rest) => takeBasic fuel (c :: chars) rest
        | .error e => .error e
      else if isControl c then .error .invalidText
      else takeBasic fuel (c :: chars) rest

/-- Takes the characters of a literal string on one line, through the closing quote. -/
def takeLiteral : List Char → Scan String
  | _, [] => .error .invalidText
  | chars, c :: rest =>
      if c = '\'' then .ok (String.ofList chars.reverse, rest)
      else if isControl c then .error .invalidText
      else takeLiteral (c :: chars) rest

/-- Takes the quotes at the end of a string on several lines: three, and up to two more that
belong to the string.
-/
def takeClosing? (quote : Char) (source : List Char) : Option (Nat × List Char) :=
  let count := (source.takeWhile (· = quote)).length
  if count < 3 then none
  else
    let count := Nat.min count 5
    some (count - 3, source.drop count)

def dropWhite : List Char → List Char
  | [] => []
  | '\r' :: '\n' :: rest => dropWhite rest
  | c :: rest => if isSpace c || c = '\n' then dropWhite rest else c :: rest

/-- The text after a backslash at the end of a line, which hides the break and the blanks
after it.
-/
def afterHiddenBreak? (source : List Char) : Option (List Char) :=
  (afterLineBreak? (source.dropWhile isSpace)).map dropWhite

/-- Takes the characters of a string on several lines, through the closing quotes. The first
argument bounds the number of steps; the second tells whether backslashes escape.
-/
def takeLines (escapes : Bool) (quote : Char) : Nat → List Char → Scan String
  | 0, _, _ => .error .invalidText
  | _ + 1, _, [] => .error .invalidText
  | fuel + 1, chars, c :: rest =>
      match takeClosing? quote (c :: rest) with
      | some (extra, rest) =>
          .ok (String.ofList (chars.reverse ++ List.replicate extra quote), rest)
      | none =>
          if escapes && c = '\\' then
            match afterHiddenBreak? rest with
            | some rest => takeLines escapes quote fuel chars rest
            | none =>
                match takeEscape rest with
                | .ok (c, rest) => takeLines escapes quote fuel (c :: chars) rest
                | .error e => .error e
          else if c = '\n' then takeLines escapes quote fuel (c :: chars) rest
          else if c = '\r' then
            if rest.head? = some '\n' then takeLines escapes quote fuel (c :: chars) rest
            else .error .invalidText
          else if isControl c then .error .invalidText
          else takeLines escapes quote fuel (c :: chars) rest

/-- Takes the characters of a string on several lines after its opening quotes, where a line
break does not count.
-/
def takeBlock (escapes : Bool) (quote : Char) : Scan String := fun source =>
  let source := (afterLineBreak? source).getD source
  takeLines escapes quote (source.length + 1) [] source

/-- Takes a string if the text starts with a quote. -/
def takeText? : List Char → Option (Except Fault (String × List Char))
  | '"' :: '"' :: '"' :: rest => some (takeBlock true '"' rest)
  | '\'' :: '\'' :: '\'' :: rest => some (takeBlock false '\'' rest)
  | '"' :: rest => some (takeBasic (rest.length + 1) [] rest)
  | '\'' :: rest => some (takeLiteral [] rest)
  | _ => none

/-- Whether a character may occur in a key without quotes. -/
def isBareKeyChar (c : Char) : Bool :=
  c.isAlphanum || c = '_' || c = '-'

/-- Takes one part of a key: bare, or a string on one line. -/
def takeKeyPart : Scan String := fun source =>
  match source with
  | '"' :: rest => takeBasic (rest.length + 1) [] rest
  | '\'' :: rest => takeLiteral [] rest
  | _ =>
      let name := source.takeWhile isBareKeyChar
      if name.isEmpty then .error .invalidKey
      else .ok (String.ofList name, source.drop name.length)

/-- Takes the parts of a key, which are separated by points. The first argument bounds their
number.
-/
def takeKey : Nat → Scan (List String)
  | 0, _ => .error .invalidKey
  | fuel + 1, source => do
      let (part, rest) ← takeKeyPart source
      match rest.dropWhile isSpace with
      | '.' :: rest =>
          let (parts, rest) ← takeKey fuel (rest.dropWhile isSpace)
          return (part :: parts, rest)
      | rest => return ([part], rest)

end LogIntake.Toml
