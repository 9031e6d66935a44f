import LogIntake.Label.Name
import LogIntake.Relabel.Rule

/-! What a rule has to satisfy besides having a pattern that compiles: targets have to be
valid names, and actions that ignore a field do not accept a value for it.
-/

namespace LogIntake.Relabel

open Label

/-- Whether a text is a reference between braces, from its opening brace on, and what follows
it.
-/
def afterBraces? (text : List Char) : Option (List Char) :=
  match text with
  | '\x7b' :: rest =>
      let name := rest.takeWhile isNameChar
      match rest.drop name.length with
      | '\x7d' :: after => if name.isEmpty then none else some after
      | _ => none
  | _ => none

/-- Whether a text is made of name characters and references. A reference without braces
needs one name character only, for those that follow it may as well stand for themselves. The
first argument bounds the number of steps.
-/
def isTemplateRest : Nat → List Char → Bool
  | _, [] => true
  | 0, _ :: _ => false
  | fuel + 1, c :: rest =>
      if c = '$' then
        match afterBraces? rest with
        | some after => isTemplateRest fuel after
        | none => (rest.head?.any isNameChar) && isTemplateRest fuel rest
      else isNameChar c && isTemplateRest fuel rest

/-- Whether a text is the template of a label name: name characters and references to groups,
the first of them no digit.
-/
def isTemplate (text : String) : Bool :=
  let chars := text.toList
  !chars.isEmpty && !(chars.head?.any Char.isDigit) && isTemplateRest chars.length chars

/-- What a rule lacks. -/
inductive RuleFault where
  | missingTarget
  | invalidTemplate
  | invalidTarget
  | surplusFields
  | zeroModulus
  | invalidReplacement
  | notRegexOnly
  deriving Repr, DecidableEq, Inhabited

/-- The wording of a fault, which follows the name of the action. -/
def RuleFault.message : RuleFault → String
  | .missingTarget => "requires 'target_label' value"
  | .invalidTemplate => "has invalid templated 'target_label'"
  | .invalidTarget => "has invalid 'target_label' value"
  | .surplusFields => "requires only 'source_labels' and 'target_label', and no other fields"
  | .zeroModulus => "requires non-zero 'modulus'"
  | .invalidReplacement => "has invalid 'replacement' value"
  | .notRegexOnly => "requires only 'regex', and no other fields"

namespace Rule

def isTemplated (rule : Rule) : Bool :=
  rule.targetLabel.toList.contains '$'

def targetFault? (rule : Rule) : Option RuleFault :=
  match rule.action with
  | .replace =>
      if rule.isTemplated then
        if isTemplate rule.targetLabel then none else some .invalidTemplate
      else if isValidName rule.targetLabel then none
      else some .invalidTarget
  | .lowercase | .uppercase | .keepEqual | .dropEqual =>
      if isValidName rule.targetLabel then none else some .invalidTarget
  | _ => none

/-- Whether separator, modulus and replacement have their defaults. -/
def hasDefaultOptions (rule : Rule) : Bool :=
  rule.modulus = 0 && rule.separator = defaultSeparator
    && rule.replacement = defaultReplacement

/-- What is wrong with the fields that belong to the action, if anything. -/
def fieldFault? (rule : Rule) : Option RuleFault :=
  match rule.action with
  | .keepEqual | .dropEqual =>
      if rule.regex = defaultRegex && rule.hasDefaultOptions then none else some .surplusFields
  | .hashMod => if rule.modulus = 0 then some .zeroModulus else none
  | .labelMap => if isTemplate rule.replacement then none else some .invalidReplacement
  | .labelDrop | .labelKeep =>
      if rule.sourceLabels.isEmpty && rule.targetLabel.isEmpty && rule.hasDefaultOptions then
        none
      else some .notRegexOnly
  | _ => none

/-- The first thing that is wrong with a rule apart from its pattern. -/
def fault? (rule : Rule) : Option RuleFault :=
  if rule.action.needsTarget && rule.targetLabel.isEmpty then some .missingTarget
  else rule.targetFault?.or rule.fieldFault?

end Rule

end LogIntake.Relabel
