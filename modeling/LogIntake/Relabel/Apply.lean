import LogIntake.Digest.Md5
import LogIntake.Label.LabelSet
import LogIntake.Regex.Compiled
import LogIntake.Relabel.Check
import LogIntake.Text.Utf8

/-! Compiled rules and what they do to a label set. A rule either gives the set that it leaves
or drops the record.
-/

namespace LogIntake.Relabel

open Label

/-- Why a list of rules does not compile, with the position of the rule. -/
inductive RuleError where
  | invalidRegex (index : Nat) (pattern : String) (cause : Regex.Error)
  | invalidRule (index : Nat) (action : Action) (cause : RuleFault)
  deriving Repr, DecidableEq, Inhabited

def RuleError.message : RuleError → String
  | .invalidRegex index pattern cause =>
      s!"rule[{index}]: invalid regex '{pattern}': {cause.message}"
  | .invalidRule index action cause => s!"rule[{index}]: {action.name} action {cause.message}"

/-- A rule with its pattern compiled. -/
structure CompiledRule where
  rule : Rule
  regex : Regex
  deriving Repr, Inhabited

/-- The pattern that is compiled for a rule: it is to match from end to end. -/
def anchored (pattern : String) : String :=
  "^(?:" ++ pattern ++ ")$"

def CompiledRule.compile (index : Nat) (rule : Rule) : Except RuleError CompiledRule :=
  match rule.fault? with
  | some cause => .error (.invalidRule index rule.action cause)
  | none =>
      match Regex.compile (anchored rule.regex) with
      | .ok regex => .ok ⟨rule, regex⟩
      | .error cause => .error (.invalidRegex index rule.regex cause)

/-- The number that eight bytes denote, the most significant first. -/
def bigEndian (bytes : List UInt8) : Nat :=
  bytes.foldl (fun value byte => value * 256 + byte.toNat) 0

/-- The shard of a text: the second half of its digest, modulo a number. -/
def shard (text : String) (modulus : Nat) : Nat :=
  bigEndian ((Md5.digest (Text.Utf8.encode text)).drop 8) % modulus

namespace Rule

/-- The values of the source labels, joined by the separator; absent ones are empty. -/
def sourceValue (rule : Rule) (labels : LabelSet) : String :=
  rule.separator.intercalate (rule.sourceLabels.map labels.value)

end Rule

namespace CompiledRule

def isMatch (compiled : CompiledRule) (text : String) : Bool :=
  compiled.regex.isMatch text.toList

/-- Writes the replacement into the target if the source value matches and the target comes
out as a valid name.
-/
def replace (compiled : CompiledRule) (labels : LabelSet) (value : String) : LabelSet :=
  match compiled.regex.find value.toList with
  | none => labels
  | some found =>
      let expand := fun template : String =>
        String.ofList (compiled.regex.expand found template.toList)
      let target := expand compiled.rule.targetLabel
      if isValidName target then labels.set target (expand compiled.rule.replacement)
      else labels

def mappedName (compiled : CompiledRule) (name : String) : String :=
  String.ofList (compiled.regex.replaceAll name.toList compiled.rule.replacement.toList)

/-- The copies that the rule makes of labels, in ascending order of the labels' names. -/
def copies (compiled : CompiledRule) (labels : LabelSet) : List (String × String) :=
  (labels.toList.filter fun entry => compiled.isMatch entry.1).map fun entry =>
    (compiled.mappedName entry.1, entry.2)

/-- Applies the rule. The result is none if the record is dropped. -/
def apply (compiled : CompiledRule) (labels : LabelSet) : Option LabelSet :=
  let rule := compiled.rule
  let value := rule.sourceValue labels
  match rule.action with
  | .drop => if compiled.isMatch value then none else some labels
  | .keep => if compiled.isMatch value then some labels else none
  | .dropEqual => if labels.value rule.targetLabel = value then none else some labels
  | .keepEqual => if labels.value rule.targetLabel = value then some labels else none
  | .replace => some (compiled.replace labels value)
  | .lowercase => some (labels.set rule.targetLabel (Unicode.toLowercase value))
  | .uppercase => some (labels.set rule.targetLabel (Unicode.toUppercase value))
  | .hashMod => some (labels.set rule.targetLabel (toString (shard value rule.modulus)))
  | .labelMap => some (labels.setAll (compiled.copies labels))
  | .labelDrop => some (labels.filter fun name _ => !compiled.isMatch name)
  | .labelKeep => some (labels.filter fun name _ => compiled.isMatch name)

end CompiledRule

abbrev Rules :=
  List CompiledRule

namespace Rules

/-- Compiles rules, the first of which stands at a given position. -/
def compileFrom : Nat → List Rule → Except RuleError Rules
  | _, [] => .ok []
  | index, rule :: rules => do
      let first ← CompiledRule.compile index rule
      let rest ← compileFrom (index + 1) rules
      return first :: rest

/-- Compiles rules; the first one that does not compile is the error. -/
def compile (rules : List Rule) : Except RuleError Rules :=
  compileFrom 0 rules

/-- Applies rules until one of them drops the record. -/
def apply (rules : Rules) (labels : LabelSet) : Option LabelSet :=
  rules.foldlM (fun labels rule => rule.apply labels) labels

end Rules

end LogIntake.Relabel
