import LogIntake.Command.Settings
import LogIntake.CommandLine.Invocation
import LogIntake.Relabel.RuleFile
import LogIntake.Report

/-! Running commands. What a command sees of the world is given to it, and what it writes is
its result.
-/

namespace LogIntake

open Relabel

/-- What commands see of the world: files, variables, the standard input or the reason why it cannot
be read, the time, and whether reports may be emphasized.
-/
structure Surroundings where
  files : Files
  environment : NameMap
  input : Except FileError (List UInt8)
  now : Calendar.Instant
  emphasis : Bool

/-- Bytes stand for an input that is read to its end. -/
instance inputOfBytes : Coe (List UInt8) (Except FileError (List UInt8)) :=
  ⟨.ok⟩

/-- What comes of a command: what it writes, and why it fails if it does. -/
structure Outcome where
  output : String
  error : Option CommandError
  deriving Repr, DecidableEq, Inhabited

namespace Outcome

/-- A command that fails before it writes anything. -/
def failed (error : CommandError) : Outcome :=
  ⟨"", some error⟩

def exitCode (outcome : Outcome) : Nat :=
  match outcome.error with
  | none => 0
  | some error => error.exitCode

end Outcome

def writeReport (output : OutputFormat) (text : String) (json : Json) : String :=
  match output with
  | .text => text
  | .json => json.pretty ++ "\n"

namespace Relabel

def loadRules (files : Files) (path : String) : Except RuleFileError (List Rule) := do
  let document ← (files.readText path).mapError (.unreadable path)
  (parseRules document).mapError (.unparsable path)

end Relabel

namespace FormatArguments

/-- Overlays configured labels with those of the command line. -/
def addLabels (labels : RecordLabels) (added : List (String × String))
    : Except CommandError RecordLabels :=
  added.foldlM (fun labels label =>
    (labels.insert label.1 label.2).mapError (.label label.1)) labels

/-- The pipeline with what the command line adds to it: policies are switched on, labels win
over those of the same name, and the rules of a file come after the configured ones.
-/
def extend (arguments : FormatArguments) (files : Files) (target : Target)
    : Except CommandError Target := do
  let labels ← addLabels target.labels arguments.labels
  let added ←
    match arguments.ruleFile with
    | some path => (loadRules files path).mapError .ruleFile
    | none => .ok []
  return ⟨target.useIncomingTimestamp || arguments.useIncomingTimestamp,
    target.useFullLine || arguments.useFullLine, labels, target.rules ++ added⟩

/-- The bytes that are formatted: those of a file, or the standard input. -/
def readInput (arguments : FormatArguments) (surroundings : Surroundings)
    : Except CommandError (List UInt8) :=
  let input :=
    match arguments.input with
    | some path => surroundings.files.readBytes path
    | none => surroundings.input
  input.mapError .input

/-- The settings of a file, or the default ones if it does not exist. -/
def loadSettings (surroundings : Surroundings) (path : String)
    : Except CommandError Settings := do
  if ← (surroundings.files.hasPath path).mapError .input then
    (Settings.loadFile surroundings.files surroundings.environment path).mapError .load
  else (Settings.loadDefault surroundings.environment).mapError fun e => .load (.settings e)

def report (arguments : FormatArguments) (surroundings : Surroundings)
    (settingsPath : String)
    : Except CommandError Report := do
  let settings ← loadSettings surroundings settingsPath
  let target ← arguments.extend surroundings.files settings.target
  let formatter ← target.formatter.mapError .rules
  let input ← arguments.readInput surroundings
  return (Report.process formatter surroundings.now arguments.push input).1

/-- Formats entries and writes the report, which includes those that fail. -/
def run (arguments : FormatArguments) (surroundings : Surroundings) (settingsPath : String)
    (output : OutputFormat)
    : Outcome :=
  match arguments.report surroundings settingsPath with
  | .error e => .failed e
  | .ok report =>
      ⟨writeReport output (report.render surroundings.emphasis) report.toJson,
       if 0 < report.failed then some (.failedEntries report.failed report.total) else none⟩

end FormatArguments

namespace Command

def runCheck (path : String) (surroundings : Surroundings) (output : OutputFormat)
    : Outcome :=
  let check :=
    match loadRules surroundings.files path with
    | .ok rules => RuleCheck.ofRules path rules
    | .error e => RuleCheck.ofError path (CommandError.ruleFile e).message
  ⟨writeReport output (check.render surroundings.emphasis) check.toJson,
   if check.isValid then none else some (.ruleFile (.invalid path))⟩

def runValidation (surroundings : Surroundings) (settingsPath : String)
    (output : OutputFormat)
    : Outcome :=
  let check := SettingsCheck.ofFile surroundings.files surroundings.environment settingsPath
  ⟨writeReport output (check.render surroundings.emphasis) check.toJson,
   if check.isValid then none else some .invalidSettings⟩

def viewSettings (part : Option String) (surroundings : Surroundings)
    (settingsPath : String)
    : Except CommandError SettingsView := do
  let settings ←
    (Settings.loadFile surroundings.files surroundings.environment settingsPath).mapError .load
  match part with
  | none => return ⟨settingsPath, none, settings⟩
  | some name =>
      match SettingsPart.ofName? name with
      | some part => return ⟨settingsPath, some part, settings⟩
      | none => throw (.unknownPart name)

def runView (part : Option String) (surroundings : Surroundings)
    (settingsPath : String) (output : OutputFormat)
    : Outcome :=
  match viewSettings part surroundings settingsPath with
  | .error e => .failed e
  | .ok view =>
      ⟨writeReport output (view.render surroundings.emphasis) view.toJson, none⟩

end Command

def Invocation.run (invocation : Invocation) (surroundings : Surroundings) : Outcome :=
  match invocation.command with
  | .format arguments =>
      arguments.run surroundings invocation.settingsPath invocation.output
  | .checkRules path => Command.runCheck path surroundings invocation.output
  | .validateSettings =>
      Command.runValidation surroundings invocation.settingsPath invocation.output
  | .showSettings part =>
      Command.runView part surroundings invocation.settingsPath invocation.output

end LogIntake
