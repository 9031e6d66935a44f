import LogIntake.Yaml.Token

/-! The value of a YAML document from its tokens. Anchors name values, and aliases stand for
the values that are named before them.
-/

namespace LogIntake.Yaml

/-- The anchors so far: the number that each name stands for, the latest first, and the values
of the numbers whose value is complete.
-/
structure Anchors where
  names : List (String × Nat)
  values : List (Nat × Yaml)
  deriving Repr, Inhabited

namespace Anchors

def empty : Anchors :=
  ⟨[], []⟩

def start (anchors : Anchors) (name : String) : Anchors :=
  { anchors with names := (name, anchors.names.length) :: anchors.names }

/-- Completes the value of a number. -/
def finish (anchors : Anchors) (number : Nat) (value : Yaml) : Anchors :=
  { anchors with values := (number, value) :: anchors.values }

/-- The value that a name stands for; it is endless within itself. -/
def get? (anchors : Anchors) (name : String) : Option Yaml :=
  (anchors.names.lookup name).map fun number =>
    (anchors.values.lookup number).getD .endless

end Anchors

abbrev Parse (α : Type) :=
  Anchors → List Token → Except Fault (α × Anchors × List Token)

def blank (tag : Option String) : Yaml :=
  .scalar .plain tag ""

/-- What stands in front of a value: the name of an anchor and a tag, each at most once. -/
structure Properties where
  anchor : Option String
  tag : Option (String × String)
  deriving Repr, Inhabited

namespace Properties

/-- Takes what stands in front of a value. -/
def take (tokens : List Token) : Properties × List Token :=
  match tokens with
  | .anchor name :: .tag handle suffix :: rest => (⟨some name, some (handle, suffix)⟩, rest)
  | .tag handle suffix :: .anchor name :: rest => (⟨some name, some (handle, suffix)⟩, rest)
  | .anchor name :: rest => (⟨some name, none⟩, rest)
  | .tag handle suffix :: rest => (⟨none, some (handle, suffix)⟩, rest)
  | _ => (⟨none, none⟩, tokens)

/-- The tag in full. The handle has to be declared. -/
def fullTag (properties : Properties) (handles : List (String × String))
    : Except Fault (Option String) :=
  match properties.tag with
  | none => .ok none
  | some ("", suffix) => .ok (some suffix)
  | some (handle, suffix) =>
      match handles.lookup handle with
      | some lead => .ok (some (lead ++ suffix))
      | none => .error .invalidTag

end Properties

/-- Where a value stands: whether it may be a block collection, and whether it may be a sequence
that is not indented.
-/
inductive Place where
  | flow
  | block
  | afterKey
  deriving Repr, DecidableEq, Inhabited

/-- Whether a place where a value may stand is empty because a token follows. -/
def isEmptyBefore (ends : List Token) (tokens : List Token) : Bool :=
  match tokens with
  | token :: _ => ends.contains token
  | [] => false

variable (handles : List (String × String))

mutual

/-- Takes a value. The first argument bounds the number of steps. -/
def takeNode : Nat → Place → Parse Yaml
  | 0, _, _, _ => .error .unexpectedEnd
  | fuel + 1, place, anchors, tokens =>
      match tokens with
      | .alias name :: rest =>
          match anchors.get? name with
          | some value => .ok (value, anchors, rest)
          | none => .error .unknownAnchor
      | _ => do
          let (properties, rest) := Properties.take tokens
          let tag ← properties.fullTag handles
          match properties.anchor with
          | none => takeContent fuel place tag properties.tag.isSome anchors rest
          | some name =>
              let number := anchors.names.length
              let (value, anchors, rest) ←
                takeContent fuel place tag true (anchors.start name) rest
              return (value, anchors.finish number value, rest)

/-- Takes a value behind its properties; it may be empty only if it has some. -/
def takeContent : Nat → Place → Option String → Bool → Parse Yaml
  | 0, _, _, _, _, _ => .error .unexpectedEnd
  | fuel + 1, place, tag, hasProperties, anchors, tokens =>
      match tokens with
      | .scalar style chars :: rest => .ok (.scalar style tag chars, anchors, rest)
      | .flowSequenceStart :: rest => takeFlowItems fuel true [] anchors rest
      | .flowMappingStart :: rest => takeFlowEntries fuel true [] anchors rest
      | .blockEntry :: _ =>
          if place = .afterKey then takeBareItems fuel [] anchors tokens
          else if hasProperties then .ok (blank tag, anchors, tokens)
          else .error .unexpectedToken
      | .blockSequenceStart :: rest =>
          if place ≠ .flow then takeBlockItems fuel [] anchors rest
          else if hasProperties then .ok (blank tag, anchors, tokens)
          else .error .unexpectedToken
      | .blockMappingStart :: rest =>
          if place ≠ .flow then takeBlockEntries fuel [] anchors rest
          else if hasProperties then .ok (blank tag, anchors, tokens)
          else .error .unexpectedToken
      | _ =>
          if hasProperties then .ok (blank tag, anchors, tokens)
          else .error .unexpectedToken

/-- Takes a value unless one of some tokens follows, which makes it empty. -/
def takeOptional : Nat → Place → List Token → Parse Yaml
  | 0, _, _, _, _ => .error .unexpectedEnd
  | fuel + 1, place, ends, anchors, tokens =>
      if isEmptyBefore ends tokens then .ok (blank none, anchors, tokens)
      else takeNode fuel place anchors tokens

/-- Takes the value behind a colon; without a colon it is empty. -/
def takeValue : Nat → Place → List Token → Parse Yaml
  | 0, _, _, _, _ => .error .unexpectedEnd
  | fuel + 1, place, ends, anchors, tokens =>
      match tokens with
      | .value :: rest => takeOptional fuel place ends anchors rest
      | _ => .ok (blank none, anchors, tokens)

/-- Takes the items of a block sequence through its end; the items before come last first. -/
def takeBlockItems : Nat → List Yaml → Parse Yaml
  | 0, _, _, _ => .error .unexpectedEnd
  | fuel + 1, items, anchors, tokens =>
      match tokens with
      | .blockEntry :: rest => do
          let (item, anchors, rest) ←
            takeOptional fuel .block [.blockEntry, .blockEnd] anchors rest
          takeBlockItems fuel (item :: items) anchors rest
      | .blockEnd :: rest => .ok (.sequence items.reverse, anchors, rest)
      | _ => .error .unexpectedToken

/-- Takes the items of a sequence that is not indented. -/
def takeBareItems : Nat → List Yaml → Parse Yaml
  | 0, _, _, _ => .error .unexpectedEnd
  | fuel + 1, items, anchors, tokens =>
      match tokens with
      | .blockEntry :: rest => do
          let (item, anchors, rest) ←
            takeOptional fuel .block [.blockEntry, .key, .value, .blockEnd] anchors rest
          takeBareItems fuel (item :: items) anchors rest
      | _ => .ok (.sequence items.reverse, anchors, tokens)

/-- Takes the entries of a block mapping through its end. -/
def takeBlockEntries : Nat → List (Yaml × Yaml) → Parse Yaml
  | 0, _, _, _ => .error .unexpectedEnd
  | fuel + 1, entries, anchors, tokens =>
      let ends : List Token := [.key, .value, .blockEnd]
      match tokens with
      | .key :: rest => do
          let (key, anchors, rest) ← takeOptional fuel .afterKey ends anchors rest
          let (value, anchors, rest) ← takeValue fuel .afterKey ends anchors rest
          takeBlockEntries fuel ((key, value) :: entries) anchors rest
      | .blockEnd :: rest => .ok (.mapping entries.reverse, anchors, rest)
      | _ => .error .unexpectedToken

/-- Takes the items of a sequence between brackets; a key among them begins a mapping of one
entry.
-/
def takeFlowItems : Nat → Bool → List Yaml → Parse Yaml
  | 0, _, _, _, _ => .error .unexpectedEnd
  | fuel + 1, isFirst, items, anchors, tokens =>
      match tokens, isFirst with
      | .flowSequenceEnd :: rest, _ => .ok (.sequence items.reverse, anchors, rest)
      | .flowEntry :: rest, false => takeFlowItem fuel items anchors rest
      | _, true => takeFlowItem fuel items anchors tokens
      | _, false => .error .unexpectedToken

/-- Takes an item of a sequence between brackets and those behind it. The token behind a key
mark that has no key behind it does not count.
-/
def takeFlowItem : Nat → List Yaml → Parse Yaml
  | 0, _, _, _ => .error .unexpectedEnd
  | fuel + 1, items, anchors, tokens =>
      let ends : List Token := [.flowEntry, .flowSequenceEnd]
      match tokens with
      | .flowSequenceEnd :: rest => .ok (.sequence items.reverse, anchors, rest)
      | .key :: rest => do
          let isEmpty := isEmptyBefore (.value :: ends) rest
          let (key, anchors, rest) ←
            if isEmpty then .ok (blank none, anchors, rest.drop 1)
            else takeNode fuel .flow anchors rest
          let (value, anchors, rest) ← takeValue fuel .flow ends anchors rest
          takeFlowItems fuel false (.mapping [(key, value)] :: items) anchors rest
      | _ => do
          let (item, anchors, rest) ← takeNode fuel .flow anchors tokens
          takeFlowItems fuel false (item :: items) anchors rest

/-- Takes the entries of a mapping between braces. -/
def takeFlowEntries : Nat → Bool → List (Yaml × Yaml) → Parse Yaml
  | 0, _, _, _, _ => .error .unexpectedEnd
  | fuel + 1, isFirst, entries, anchors, tokens =>
      match tokens, isFirst with
      | .flowMappingEnd :: rest, _ => .ok (.mapping entries.reverse, anchors, rest)
      | .flowEntry :: rest, false => takeFlowMember fuel entries anchors rest
      | _, true => takeFlowMember fuel entries anchors tokens
      | _, false => .error .unexpectedToken

/-- Takes an entry of a mapping between braces and those behind it. -/
def takeFlowMember : Nat → List (Yaml × Yaml) → Parse Yaml
  | 0, _, _, _ => .error .unexpectedEnd
  | fuel + 1, entries, anchors, tokens =>
      let ends : List Token := [.flowEntry, .flowMappingEnd]
      match tokens with
      | .flowMappingEnd :: rest => .ok (.mapping entries.reverse, anchors, rest)
      | .key :: rest => do
          let (key, anchors, rest) ← takeOptional fuel .flow (.value :: ends) anchors rest
          let (value, anchors, rest) ← takeValue fuel .flow ends anchors rest
          takeFlowEntries fuel false ((key, value) :: entries) anchors rest
      | _ => do
          let (key, anchors, rest) ← takeNode fuel .flow anchors tokens
          takeFlowEntries fuel false ((key, blank none) :: entries) anchors rest

end

/-! ### Documents -/

def defaultHandles : List (String × String) :=
  [("!", "!"), ("!!", "tag:yaml.org,2002:")]

/-- Takes the directives of a document. The version has to be known and stated once, and no
handle may be declared twice.
-/
def takeDirectives : Bool → List (String × String) → List Token
    → Except Fault (List (String × String) × List Token)
  | isVersioned, declared, .versionDirective major minor :: rest =>
      if isVersioned || major ≠ 1 || (minor ≠ 1 && minor ≠ 2) then .error .invalidDirective
      else takeDirectives true declared rest
  | isVersioned, declared, .tagDirective handle lead :: rest =>
      if (declared.lookup handle).isSome then .error .invalidDirective
      else takeDirectives isVersioned ((handle, lead) :: declared) rest
  | _, declared, tokens => .ok (declared, tokens)

/-- Takes the content of a document behind its start. -/
def takeDocument (handles : List (String × String)) (tokens : List Token)
    : Except Fault (Yaml × List Token) :=
  match tokens with
  | [] | .documentStart :: _ | .documentEnd :: _ | .versionDirective _ _ :: _
  | .tagDirective _ _ :: _ => .ok (blank none, tokens)
  | _ => do
      let (value, _, rest) ← takeNode handles (4 * tokens.length + 4) .block .empty tokens
      return (value, rest)

def takeFirstDocument (all : List Token) : Except Fault (Yaml × List Token) := do
  let (declared, rest) ← takeDirectives false [] all
  match rest with
  | .documentStart :: rest => takeDocument (declared ++ defaultHandles) rest
  | _ =>
      if rest.length < all.length then throw .unexpectedToken
      else
        let (value, _, rest) ←
          takeNode defaultHandles (4 * rest.length + 4) .block .empty rest
        return (value, rest)

/-- Reads the only document of a text. The result is none if there is no document at all. -/
def parse (document : String) : Except Fault (Option Yaml) := do
  let all ← tokens document
  if all.isEmpty then return none
  let (value, rest) ← takeFirstDocument all
  if (rest.dropWhile (· = .documentEnd)).isEmpty then return some value
  else throw .severalDocuments

end LogIntake.Yaml
