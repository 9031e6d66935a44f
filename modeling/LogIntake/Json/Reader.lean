import LogIntake.Json.Number
import LogIntake.NameMap

/-! Reading JSON documents from bytes. A reader takes one value off the front of the bytes;
values of a known kind are read without an intermediate tree, so the first fault in the
document is the one reported, be it a fault of form or of kind.
-/

namespace LogIntake.Json

abbrev Reader (α : Type) :=
  List UInt8 → Except DecodeError (α × List UInt8)

def formal {α : Type} (result : Except FormError α) : Except DecodeError α :=
  result.mapError .form

/-- Reads a value that is neither a list nor an object. -/
def readScalar : List UInt8 → Except FormError (Json × List UInt8)
  | [] => .error .endInValue
  | byte :: rest =>
      if byte = byteOf 'n' then (readWord ['u', 'l', 'l'] rest).map fun rest => (.null, rest)
      else if byte = byteOf 't' then
        (readWord ['r', 'u', 'e'] rest).map fun rest => (.bool true, rest)
      else if byte = byteOf 'f' then
        (readWord ['a', 'l', 's', 'e'] rest).map fun rest => (.bool false, rest)
      else if byte = byteOf '"' then
        (readString rest).map fun (text, rest) => (.str text, rest)
      else if byte = byteOf '-' then
        (readUnsigned true rest).map fun (n, rest) => (.num n, rest)
      else if isDigit byte then
        (readUnsigned false (byte :: rest)).map fun (n, rest) => (.num n, rest)
      else .error .expectedValue

/-- Whether a list goes on with a further element, and the bytes at that element or at the
closing bracket.
-/
def nextElement (first : Bool) (bytes : List UInt8)
    : Except FormError (Bool × List UInt8) :=
  match skipBlanks bytes with
  | [] => .error .endInList
  | byte :: rest =>
      if byte = byteOf ']' then .ok (false, byte :: rest)
      else if first then .ok (true, byte :: rest)
      else if byte = byteOf ',' then
        match skipBlanks rest with
        | [] => .error .endInValue
        | next :: after =>
            if next = byteOf ']' then .error .trailingComma else .ok (true, next :: after)
      else .error .expectedListCommaOrEnd

/-- Whether an object goes on with a further member, and the bytes at that member's name or
at the closing brace.
-/
def nextMember (first : Bool) (bytes : List UInt8)
    : Except FormError (Bool × List UInt8) :=
  match skipBlanks bytes with
  | [] => .error .endInObject
  | byte :: rest =>
      if byte = byteOf '\x7d' then .ok (false, byte :: rest)
      else if first then
        if byte = byteOf '"' then .ok (true, byte :: rest) else .error .keyMustBeString
      else if byte = byteOf ',' then
        match skipBlanks rest with
        | [] => .error .endInValue
        | next :: after =>
            if next = byteOf '"' then .ok (true, next :: after)
            else if next = byteOf '\x7d' then .error .trailingComma
            else .error .keyMustBeString
      else .error .expectedObjectCommaOrEnd

/-- Passes the colon between the name and the value of a member. -/
def passColon (bytes : List UInt8) : Except FormError (List UInt8) :=
  match skipBlanks bytes with
  | [] => .error .endInObject
  | byte :: rest => if byte = byteOf ':' then .ok rest else .error .expectedColon

/-- Reads the value of a member, from its colon on. -/
def memberValue {α : Type} (read : Reader α) : Reader α := fun bytes => do
  let bytes ← formal (passColon bytes)
  read bytes

/-- Reads the elements of a list from left to right, through the closing bracket. The first
argument bounds the number of elements, each of which uses up a byte.
-/
def foldElements {σ : Type} (step : σ → Reader σ) : Nat → Bool → σ → Reader σ
  | 0, _, _, _ => .error (.form .endInList)
  | fuel + 1, first, state, bytes => do
      let (more, bytes) ← formal (nextElement first bytes)
      if more then
        let (state, bytes) ← step state bytes
        foldElements step fuel false state bytes
      else return (state, bytes.drop 1)

/-- Reads the members of an object from left to right, through the closing brace. A step gets
a member's name and the bytes from its colon on. The first argument bounds the number of
members, each of which uses up a byte.
-/
def foldMembers {σ : Type} (step : σ → String → Reader σ) : Nat → Bool → σ → Reader σ
  | 0, _, _, _ => .error (.form .endInObject)
  | fuel + 1, first, state, bytes => do
      let (more, bytes) ← formal (nextMember first bytes)
      if more then
        let (name, bytes) ← formal (readString (bytes.drop 1))
        let (state, bytes) ← step state name bytes
        foldMembers step fuel false state bytes
      else return (state, bytes.drop 1)

/-- Reads the elements of a list after its opening bracket. -/
def readElements {σ : Type} (init : σ) (step : σ → Reader σ) : Reader σ := fun bytes =>
  foldElements step (bytes.length + 1) true init bytes

/-- Reads the members of an object after its opening brace. -/
def readMembers {σ : Type} (init : σ) (step : σ → String → Reader σ) : Reader σ :=
  fun bytes => foldMembers step (bytes.length + 1) true init bytes

/-- How many brackets may be open at once, plus one. -/
def maxDepth : Nat :=
  128

/-- Reads any value. The first argument is one more than the number of brackets that may be
opened inside.
-/
def readValue : Nat → Reader Json
  | 0, _ => .error (.form .tooDeep)
  | depth + 1, bytes =>
      match skipBlanks bytes with
      | [] => .error (.form .endInValue)
      | byte :: rest =>
          if byte = byteOf '[' then
            if depth = 0 then .error (.form .tooDeep)
            else do
              let (items, rest) ← readElements [] (fun items bytes => do
                let (item, bytes) ← readValue depth bytes
                return (item :: items, bytes)) rest
              return (.arr items.reverse, rest)
          else if byte = byteOf '\x7b' then
            if depth = 0 then .error (.form .tooDeep)
            else do
              let (members, rest) ← readMembers [] (fun members name bytes => do
                let (value, bytes) ← memberValue (readValue depth) bytes
                return (insertEntry name value members, bytes)) rest
              return (.obj members, rest)
          else formal (readScalar (byte :: rest))

/-- The error for a value of another kind than expected, or for a value that cannot even be
read.
-/
def mismatch {α : Type} (expected : String) (bytes : List UInt8) : Except DecodeError α :=
  match bytes with
  | [] => .error (.form .endInValue)
  | byte :: rest =>
      if byte = byteOf '[' then .error (.invalidType .sequence expected)
      else if byte = byteOf '\x7b' then .error (.invalidType .map expected)
      else
        match readScalar (byte :: rest) with
        | .ok (value, _) => .error (.invalidType value.found expected)
        | .error e => .error (.form e)

/-- Reads a string; the argument describes what is expected. -/
def readTextAs (expected : String) : Reader String := fun bytes =>
  match skipBlanks bytes with
  | byte :: rest =>
      if byte = byteOf '"' then formal (readString rest)
      else mismatch expected (byte :: rest)
  | [] => .error (.form .endInValue)

def readText : Reader String :=
  readTextAs "a string"

/-- Reads an object whose values are strings; the last of several equal names counts. -/
def readTextMap : Reader NameMap := fun bytes =>
  match skipBlanks bytes with
  | byte :: rest =>
      if byte = byteOf '\x7b' then
        readMembers .empty (fun map name bytes => do
          let (value, bytes) ← memberValue readText bytes
          return (map.insert name value, bytes)) rest
      else mismatch "a map" (byte :: rest)
  | [] => .error (.form .endInValue)

/-- A bracket that is open. -/
inductive Bracket where
  | list
  | object
  deriving Repr, DecidableEq, Inhabited

/-- Where the passing of a value stands: before a value, after an opening bracket, or after a
value.
-/
inductive Place where
  | beforeValue
  | opened
  | afterValue
  deriving Repr, DecidableEq, Inhabited

def skipMemberName (bytes : List UInt8) : Except FormError (List UInt8) :=
  match skipBlanks bytes with
  | [] => .error .endInObject
  | byte :: rest =>
      if byte = byteOf '"' then do
        let rest ← skipString rest
        passColon rest
      else .error .keyMustBeString

/-- Passes what stands between an opening bracket or a comma and the next value. -/
def skipToValue (bracket : Bracket) (bytes : List UInt8) : Except FormError (List UInt8) :=
  match bracket with
  | .list => .ok bytes
  | .object => skipMemberName bytes

/-- Passes a value that is neither a list nor an object. -/
def skipScalar : List UInt8 → Except FormError (List UInt8)
  | [] => .error .endInValue
  | byte :: rest =>
      if byte = byteOf 'n' then readWord ['u', 'l', 'l'] rest
      else if byte = byteOf 't' then readWord ['r', 'u', 'e'] rest
      else if byte = byteOf 'f' then readWord ['a', 'l', 's', 'e'] rest
      else if byte = byteOf '"' then skipString rest
      else if byte = byteOf '-' then skipUnsigned rest
      else if isDigit byte then skipUnsigned (byte :: rest)
      else .error .expectedValue

def Bracket.closes (bracket : Bracket) (byte : UInt8) : Bool :=
  match bracket with
  | .list => byte = byteOf ']'
  | .object => byte = byteOf '\x7d'

/-- Passes a value with all that it encloses, without interpreting it: strings and numbers
are checked for their form only, and brackets may nest without limit. The first argument
bounds the number of steps; the list holds the open brackets, innermost first.
-/
def skipFrom : Nat → Place → List Bracket → List UInt8 → Except FormError (List UInt8)
  | 0, _, _, _ => .error .endInValue
  | fuel + 1, .beforeValue, brackets, bytes =>
      match skipBlanks bytes with
      | [] => .error .endInValue
      | byte :: rest =>
          if byte = byteOf '[' then skipFrom fuel .opened (.list :: brackets) rest
          else if byte = byteOf '\x7b' then skipFrom fuel .opened (.object :: brackets) rest
          else
            match skipScalar (byte :: rest) with
            | .ok rest => skipFrom fuel .afterValue brackets rest
            | .error e => .error e
  | _ + 1, _, [], bytes => .ok bytes
  | fuel + 1, place, bracket :: brackets, bytes =>
      match skipBlanks bytes with
      | [] =>
          .error (match bracket with
            | .list => .endInList
            | .object => .endInObject)
      | byte :: rest =>
          if bracket.closes byte then skipFrom fuel .afterValue brackets rest
          else if place = .opened then
            match skipToValue bracket (byte :: rest) with
            | .ok rest => skipFrom fuel .beforeValue (bracket :: brackets) rest
            | .error e => .error e
          else if byte = byteOf ',' then
            match skipToValue bracket rest with
            | .ok rest => skipFrom fuel .beforeValue (bracket :: brackets) rest
            | .error e => .error e
          else
            .error (match bracket with
              | .list => .expectedListCommaOrEnd
              | .object => .expectedObjectCommaOrEnd)

def skipValue : Reader Unit := fun bytes => do
  let rest ← formal (skipFrom (2 * bytes.length + 2) .beforeValue [] bytes)
  return ((), rest)

/-- Reads an element of a list if there is a further one. -/
def readElement? {α : Type} (first : Bool) (read : Reader α) : Reader (Option α) :=
  fun bytes => do
    let (more, bytes) ← formal (nextElement first bytes)
    if more then
      let (value, bytes) ← read bytes
      return (some value, bytes)
    else return (none, bytes)

/-- Passes the closing bracket of a list in which nothing else is expected. -/
def endList (bytes : List UInt8) : Except FormError (List UInt8) :=
  match skipBlanks bytes with
  | [] => .error .endInList
  | byte :: rest =>
      if byte = byteOf ']' then .ok rest
      else if byte = byteOf ',' && (skipBlanks rest).head? = some (byteOf ']') then
        .error .trailingComma
      else .error .trailingCharacters

/-- Reads a record of named fields. It is written as an object, or as the list of its fields;
each of the two readers starts after the opening bracket, and the one for lists stops before
the closing bracket.
-/
def readRecord {α : Type} (expected : String) (members elements : Reader α) : Reader α :=
  fun bytes =>
    match skipBlanks bytes with
    | [] => .error (.form .endInValue)
    | byte :: rest =>
        if byte = byteOf '\x7b' then members rest
        else if byte = byteOf '[' then do
          let (value, rest) ← elements rest
          let rest ← formal (endList rest)
          return (value, rest)
        else mismatch expected (byte :: rest)

/-- Reads a document: one value with nothing but blanks around it. -/
def readDocument {α : Type} (read : Reader α) (bytes : List UInt8)
    : Except DecodeError α := do
  let (value, rest) ← read bytes
  if (skipBlanks rest).isEmpty then return value else throw (.form .trailingCharacters)

def parse (bytes : List UInt8) : Except DecodeError Json :=
  readDocument (readValue maxDepth) bytes

end LogIntake.Json
