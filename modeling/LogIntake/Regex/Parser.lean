import LogIntake.Regex.ClassParser

/-! Reading patterns. Open groups are kept on a stack, so nesting is bounded only by the
limit that is checked at the end.
-/

namespace LogIntake.Regex

open LogIntake.Unicode

/-- What surrounds an open group: its kind, the items before it and the branches before those,
both in reverse, and whether the surrounding text is extended.
-/
structure OpenGroup where
  kind : GroupKind
  items : List Pattern
  branches : List Pattern
  extended : Bool
  deriving Repr, Inhabited

/-- What has been read: the items of the current branch and the branches before it, both in
reverse, the open groups from the inside out, whether the text is extended, and the capturing
groups so far.
-/
structure Progress where
  items : List Pattern
  branches : List Pattern
  opened : List OpenGroup
  extended : Bool
  captures : Nat
  names : List (String × Nat)
  deriving Repr, Inhabited

/-- A pattern with the number of its capturing groups and the names of some of them. -/
structure Reading where
  pattern : Pattern
  captures : Nat
  names : List (String × Nat)
  deriving Repr, Inhabited

namespace Progress

def start : Progress :=
  ⟨[], [], [], false, 0, []⟩

def push (progress : Progress) (item : Pattern) : Progress :=
  { progress with items := item :: progress.items }

/-- The pattern of the branches of the current group. -/
def inner (progress : Progress) : Pattern :=
  .ofBranches (Pattern.ofItems progress.items.reverse :: progress.branches).reverse

def nextBranch (progress : Progress) : Progress :=
  { progress with
    items := [], branches := Pattern.ofItems progress.items.reverse :: progress.branches }

def openGroup (progress : Progress) (kind : GroupKind) (extended : Bool) : Progress :=
  { progress with
    items := [], branches := [],
    opened := ⟨kind, progress.items, progress.branches, progress.extended⟩ :: progress.opened,
    extended }

def closeGroup (progress : Progress) : Except Fault Progress :=
  match progress.opened with
  | [] => .error .unopenedGroup
  | group :: opened =>
      .ok { progress with
            items := .group group.kind progress.inner :: group.items,
            branches := group.branches, opened, extended := group.extended }

def repeatLast (progress : Progress) (min : Nat) (max : Option Nat) (greedy : Bool)
    : Except Fault Progress :=
  match progress.items with
  | item :: items =>
      if item.isRepeatable then
        .ok { progress with items := .repetition min max greedy item :: items }
      else .error .nothingToRepeat
  | [] => .error .nothingToRepeat

end Progress

/-- Whether a character may occur in the name of a group, and whether it may begin it. -/
def isGroupNameChar (first : Bool) (c : Char) : Bool :=
  c = '_' || Property.alphabetic.contains c.toNat
    || (!first
      && (c = '.' || c = '[' || c = ']'
        || (GeneralCategory.rangesOf GeneralCategory.numbers).contains c.toNat))

/-- Takes the name of a group, through its closing angle bracket. -/
def takeGroupName : Scan String := fun text =>
  let name := text.takeWhile (· ≠ '>')
  match name, text.drop name.length with
  | c :: rest, _ :: after =>
      if isGroupNameChar true c && rest.all (isGroupNameChar false) then
        .ok (String.ofList name, after)
      else .error .invalidGroupName
  | _, _ => .error .invalidGroupName

/-- Opens a capturing group, perhaps with a name. -/
def Progress.openCapture (progress : Progress) (name : Option String)
    : Except Fault Progress :=
  let index := progress.captures + 1
  let opened :=
    { progress with captures := index }.openGroup (.capture index name) progress.extended
  match name with
  | none => .ok opened
  | some name =>
      if (progress.names.lookup name).isSome then .error .duplicateGroupName
      else .ok { opened with names := (name, index) :: progress.names }

def openParenthesis (progress : Progress) (text : List Char)
    : Except Fault (Progress × List Char) := do
  match skipLayout progress.extended text with
  | '?' :: '=' :: _ => throw .unsupportedLookAround
  | '?' :: '!' :: _ => throw .unsupportedLookAround
  | '?' :: '<' :: '=' :: _ => throw .unsupportedLookAround
  | '?' :: '<' :: '!' :: _ => throw .unsupportedLookAround
  | '?' :: 'P' :: '<' :: rest =>
      let (name, rest) ← takeGroupName rest
      let progress ← progress.openCapture (some name)
      return (progress, rest)
  | '?' :: '<' :: rest =>
      let (name, rest) ← takeGroupName rest
      let progress ← progress.openCapture (some name)
      return (progress, rest)
  | '?' :: rest =>
      let ((flags, mark), rest) ← takeFlags [] rest
      let change := flagChange flags
      let extended := (change.state? .extended).getD progress.extended
      if mark = ')' then
        if change.isEmpty then throw .nothingToRepeat
        return ({ progress with extended }.push (.options change), rest)
      else return (progress.openGroup (.options change) extended, rest)
  | rest =>
      let progress ← progress.openCapture none
      return (progress, rest)

/-- Takes the question mark that makes a repetition prefer fewer rounds. -/
def takeLaziness (text : List Char) : Bool × List Char :=
  match text with
  | '?' :: rest => (false, rest)
  | _ => (true, text)

/-- Takes the bounds of a counted repetition after the opening brace, through the closing
one.
-/
def takeBounds (extended : Bool) : Scan (Nat × Option Nat) := fun text => do
  let (min, text) ← takeNumber extended (skipLayout extended text)
  let (max, text) ←
    match text with
    | ',' :: rest =>
        match skipLayout extended rest with
        | '\x7d' :: _ => pure (none, skipLayout extended rest)
        | rest => do
            let (max, rest) ← takeNumber extended rest
            pure (some max, rest)
    | _ => pure (some min, text)
  match text with
  | '\x7d' :: rest =>
      if max.all (min ≤ ·) then return ((min, max), rest) else throw .invalidCount
  | _ => throw .invalidCount

/-- Reads one part of the pattern, which starts with the given character. -/
def readPart (progress : Progress) (c : Char) (rest : List Char)
    : Except Fault (Progress × List Char) := do
  let extended := progress.extended
  match c with
  | '(' => openParenthesis progress rest
  | ')' =>
      let progress ← progress.closeGroup
      return (progress, rest)
  | '|' => return (progress.nextBranch, rest)
  | '[' =>
      let (item, rest) ← takeClass extended rest
      return (progress.push item, rest)
  | '?' =>
      let (greedy, rest) := takeLaziness rest
      let progress ← progress.repeatLast 0 (some 1) greedy
      return (progress, rest)
  | '*' =>
      let (greedy, rest) := takeLaziness rest
      let progress ← progress.repeatLast 0 none greedy
      return (progress, rest)
  | '+' =>
      let (greedy, rest) := takeLaziness rest
      let progress ← progress.repeatLast 1 none greedy
      return (progress, rest)
  | '\x7b' =>
      let ((min, max), rest) ← takeBounds extended rest
      let (greedy, rest) := takeLaziness (skipLayout extended rest)
      let progress ← progress.repeatLast min max greedy
      return (progress, rest)
  | '\\' =>
      let (item, rest) ← takeEscape extended rest
      return (progress.push item, rest)
  | '.' => return (progress.push .dot, rest)
  | '^' => return (progress.push (.assertion .lineStart), rest)
  | '$' => return (progress.push (.assertion .lineEnd), rest)
  | c => return (progress.push (.literal ⟨c, false⟩), rest)

/-- Reads parts up to the end of the text. The first argument bounds their number. -/
def readParts : Nat → Progress → List Char → Except Fault Progress
  | 0, _, _ => .error .unexpectedEnd
  | fuel + 1, progress, text =>
      match skipLayout progress.extended text with
      | [] => .ok progress
      | c :: rest => do
          let (progress, rest) ← readPart progress c rest
          readParts fuel progress rest

def nestingLimit : Nat :=
  250

def parse (text : List Char) : Except Fault Reading := do
  let progress ← readParts (text.length + 1) .start text
  if !progress.opened.isEmpty then throw .unclosedGroup
  let pattern := progress.inner
  if nestingLimit < pattern.depth then throw .nestingTooDeep
  return ⟨pattern, progress.captures, progress.names⟩

end LogIntake.Regex
