import LogIntake.DataFormat
import LogIntake.Json.Printer
import LogIntake.Unicode.CaseMapping

/-! Relabelling rules as they are configured: an action and the fields that it works with.
Absent fields have defaults.
-/

namespace LogIntake.Relabel

/-- What a rule does. -/
inductive Action where
  | replace
  | keep
  | drop
  | keepEqual
  | dropEqual
  | hashMod
  | labelMap
  | labelDrop
  | labelKeep
  | lowercase
  | uppercase
  deriving Repr, DecidableEq, Inhabited

namespace Action

def name : Action → String
  | .replace => "replace"
  | .keep => "keep"
  | .drop => "drop"
  | .keepEqual => "keepequal"
  | .dropEqual => "dropequal"
  | .hashMod => "hashmod"
  | .labelMap => "labelmap"
  | .labelDrop => "labeldrop"
  | .labelKeep => "labelkeep"
  | .lowercase => "lowercase"
  | .uppercase => "uppercase"

def all : List Action :=
  [.replace, .keep, .drop, .keepEqual, .dropEqual, .hashMod, .labelMap, .labelDrop,
   .labelKeep, .lowercase, .uppercase]

def ofName? (name : String) : Option Action :=
  let name := Unicode.toLowercase name
  all.find? fun action => action.name = name

/-- Whether the action writes or reads a label of its own, which has to be named. -/
def needsTarget (action : Action) : Bool :=
  [.replace, .hashMod, .lowercase, .uppercase, .keepEqual, .dropEqual].contains action

end Action

/-- A rule. -/
structure Rule where
  sourceLabels : List String
  separator : String
  regex : String
  modulus : Nat
  targetLabel : String
  replacement : String
  action : Action
  deriving Repr, DecidableEq, Inhabited

/-- The wording of the error for a name that is no action's. -/
def unknownActionMessage (name : String) : String :=
  "unknown relabel action: " ++ name

namespace Rule

/-- The separator of source values, unless another is given. -/
def defaultSeparator : String :=
  ";"

def defaultRegex : String :=
  "(.*)"

/-- The replacement, unless another is given: the first group of the match. -/
def defaultReplacement : String :=
  "$1"

/-- The rule whose fields all have their defaults. -/
def default : Rule :=
  ⟨[], defaultSeparator, defaultRegex, 0, "", defaultReplacement, .replace⟩

variable {ν ε : Type}

def decodeAction (format : DataFormat ν ε) (value : ν) : Except ε Action := do
  let name ← format.text value
  match Action.ofName? name with
  | some action => return action
  | none => throw (format.rejected (unknownActionMessage name))

/-- The fields of a rule, in the order of the list form. -/
def fields (format : DataFormat ν ε) : List (Field ν ε Rule) :=
  [⟨"source_labels", fun rule value => do
      return { rule with sourceLabels := ← format.decodeList format.text value }⟩,
   ⟨"separator", fun rule value => do return { rule with separator := ← format.text value }⟩,
   ⟨"regex", fun rule value => do return { rule with regex := ← format.text value }⟩,
   ⟨"modulus", fun rule value => do return { rule with modulus := ← format.word value }⟩,
   ⟨"target_label", fun rule value => do
      return { rule with targetLabel := ← format.text value }⟩,
   ⟨"replacement", fun rule value => do
      return { rule with replacement := ← format.text value }⟩,
   ⟨"action", fun rule value => do
      return { rule with action := ← decodeAction format value }⟩]

def decode (format : DataFormat ν ε) : ν → Except ε Rule :=
  format.decodeRecord "struct RelabelConfig" (fields format) default

def toJson (rule : Rule) : Json :=
  .obj
    [("source_labels", .ofNames rule.sourceLabels), ("separator", .str rule.separator),
     ("regex", .str rule.regex), ("modulus", .num (.natural rule.modulus)),
     ("target_label", .str rule.targetLabel), ("replacement", .str rule.replacement),
     ("action", .str rule.action.name)]

end Rule

end LogIntake.Relabel
