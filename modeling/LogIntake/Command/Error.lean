import LogIntake.Command.Files
import LogIntake.Config.Settings
import LogIntake.Yaml.Value

/-! Why a command fails, with the wording and the exit code of each failure.
-/

namespace LogIntake

open Relabel

/-- Why settings cannot be loaded. -/
inductive LoadError where
  | settings (cause : SettingsError)
  | file (cause : FileError)
  deriving Repr, DecidableEq, Inhabited

def LoadError.message : LoadError → String
  | .settings cause => "config error: " ++ cause.message
  | .file cause => "io error: " ++ cause.message

/-- Why a file of rules cannot be loaded. -/
inductive RuleFileError where
  | unreadable (path : String) (cause : FileError)
  | unparsable (path : String) (cause : Yaml.Fault)
  | invalid (path : String)
  deriving Repr, DecidableEq, Inhabited

def RuleFileError.message : RuleFileError → String
  | .unreadable path cause => s!"failed to read {path}: {cause.message}"
  | .unparsable path cause => s!"failed to parse {path}: {cause.message}"
  | .invalid path => path ++ " is not a valid relabel rule file"

/-- Why a command fails. -/
inductive CommandError where
  | load (cause : LoadError)
  | label (name : String) (cause : Label.NameError)
  | invalidSettings
  | unknownPart (name : String)
  | ruleFile (cause : RuleFileError)
  | rules (cause : RuleError)
  | input (cause : FileError)
  | failedEntries (failed total : Nat)
  deriving Repr, DecidableEq, Inhabited

namespace CommandError

def message : CommandError → String
  | .load cause => cause.message
  | .label name cause => s!"configuration error: --label {name}: {cause.message}"
  | .invalidSettings => "configuration error: configuration is invalid"
  | .unknownPart name => s!"unknown section: {name} (expected: general, target)"
  | .ruleFile cause => "relabel error: " ++ cause.message
  | .rules cause => "relabel error: " ++ cause.message
  | .input cause => "io error: " ++ cause.message
  | .failedEntries failed total => s!"format error: {failed} of {total} entries failed"

/-- The exit code: 2 for settings, 10 for files, and 1 for everything else. -/
def exitCode : CommandError → Nat
  | .load (.settings _) | .label _ _ | .invalidSettings => 2
  | .load (.file _) | .input _ => 10
  | .unknownPart _ | .ruleFile _ | .rules _ | .failedEntries _ _ => 1

end CommandError

end LogIntake
