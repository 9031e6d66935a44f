import LogIntake.Relabel.Apply
import LogIntake.Terminal
import LogIntake.Unicode.Property
import LogIntake.Yaml.Decode

/-! Files of relabelling rules, which are YAML sequences, and reports on whether their rules
compile.
-/

namespace LogIntake.Relabel

/-- Reads the rules of a document. A blank document has none. -/
def parseRules (document : String) : Except Yaml.Fault (List Rule) := do
  if document.toList.all fun c => Unicode.Property.whiteSpace.contains c.toNat then return []
  match ← Yaml.parse document with
  | some value => Yaml.dataFormat.decodeList (Rule.decode Yaml.dataFormat) value
  | none => return []

/-- The report on a file of rules: its rules, and what is wrong with them. -/
structure RuleCheck where
  path : String
  rules : List Rule
  errors : List String
  deriving Repr, DecidableEq, Inhabited

namespace RuleCheck

def ofRules (path : String) (rules : List Rule) : RuleCheck :=
  match Rules.compile rules with
  | .ok _ => ⟨path, rules, []⟩
  | .error e => ⟨path, rules, [e.message]⟩

/-- The report on a file whose rules cannot be had. -/
def ofError (path error : String) : RuleCheck :=
  ⟨path, [], [error]⟩

def isValid (check : RuleCheck) : Bool :=
  check.errors.isEmpty

def padded (width : Nat) (text : String) : String :=
  text ++ String.ofList (List.replicate (width - text.length) ' ')

def row (number action sources target : String) : String :=
  padded 6 number ++ " " ++ padded 12 action ++ " " ++ padded 40 sources ++ " " ++ target
    ++ "\n"

def table (rules : List Rule) : String :=
  if rules.isEmpty then ""
  else
    let rows := rules.zipIdx.map fun (rule, index) =>
      row (toString index) rule.action.name (",".intercalate rule.sourceLabels)
        rule.targetLabel
    "\n" ++ row "#" "Action" "Sources" "Target" ++ String.ofList (List.replicate 72 '-')
      ++ "\n" ++ String.join rows

open Terminal in
/-- The text form: the result, the table of rules and the errors. -/
def render (emphasis : Bool) (check : RuleCheck) : String :=
  let result :=
    if check.isValid then paint emphasis (boldColoured .green) "VALID"
    else paint emphasis (boldColoured .red) "INVALID"
  let errors := check.errors.map fun error =>
    "  Error: " ++ paint emphasis (coloured .red) error ++ "\n"
  "Relabel Rules: " ++ paint emphasis bold check.path ++ "\n"
    ++ s!"  Rules: {check.rules.length}\n" ++ "  Result: " ++ result ++ "\n"
    ++ table check.rules ++ String.join errors

/-- The JSON form of a rule at a position, without an empty target. -/
def ruleJson (rule : Rule) (index : Nat) : Json :=
  .obj
    ([("index", .num (.natural index)), ("action", .str rule.action.name),
      ("source_labels", .ofNames rule.sourceLabels)]
      ++ if rule.targetLabel.isEmpty then [] else [("target_label", .str rule.targetLabel)])

def toJson (check : RuleCheck) : Json :=
  .obj
    [("path", .str check.path), ("total", .num (.natural check.rules.length)),
     ("valid", .bool check.isValid),
     ("rules", .arr (check.rules.zipIdx.map fun (rule, index) => ruleJson rule index)),
     ("errors", .ofNames check.errors)]

end RuleCheck

end LogIntake.Relabel
