import LogIntake.Terminal

/-! What a command line asks for: a command with its arguments, and the options that all
commands share. A command line that asks for nothing sensible has a usage error.
-/

namespace LogIntake

/-- How a report is written. -/
inductive OutputFormat where
  | text
  | json
  deriving Repr, DecidableEq, Inhabited

def OutputFormat.ofName? : String → Option OutputFormat
  | "text" => some .text
  | "json" => some .json
  | _ => none

def OutputFormat.name : OutputFormat → String
  | .text => "text"
  | .json => "json"

/-- The arguments of the command that formats entries. -/
structure FormatArguments where
  input : Option String
  push : Bool
  ruleFile : Option String
  labels : List (String × String)
  useIncomingTimestamp : Bool
  useFullLine : Bool
  deriving Repr, DecidableEq, Inhabited

/-- What the program is to do. -/
inductive Command where
  | format (arguments : FormatArguments)
  | checkRules (path : String)
  | validateSettings
  | showSettings (part : Option String)
  deriving Repr, DecidableEq, Inhabited

/-- A command with the options that all commands share. -/
structure Invocation where
  settingsPath : String
  logLevel : Option String
  output : OutputFormat
  command : Command
  deriving Repr, DecidableEq, Inhabited

/-- The paths of the files that may be read: the settings, which tell how the log is kept whatever
the command is, and the files of the command.
-/
def Invocation.paths (invocation : Invocation) : List String :=
  invocation.settingsPath
    :: match invocation.command with
      | .format arguments => arguments.ruleFile.toList ++ arguments.input.toList
      | .checkRules path => [path]
      | .validateSettings | .showSettings _ => []

/-- Whether the command reads the standard input. -/
def Invocation.readsInput (invocation : Invocation) : Bool :=
  match invocation.command with
  | .format arguments => arguments.input.isNone
  | _ => false

/-- What is wrong with a label on the command line. -/
inductive LabelFault where
  | noEquals
  | emptyName
  deriving Repr, DecidableEq, Inhabited

def LabelFault.message (label : String) : LabelFault → String
  | .noEquals => s!"expected NAME=VALUE, got '{label}'"
  | .emptyName => s!"label name is empty in '{label}'"

/-- Why a command line runs no command. Requests for help and for the version count here. -/
inductive UsageError where
  | help
  | version
  | helpWithoutCommand
  | missingCommand
  | unknownCommand
  | unknownArgument
  | repeatedArgument
  | missingArgument
  | surplusValue
  | invalidValue
  | invalidLabel (label : String) (fault : LabelFault)
  deriving Repr, DecidableEq, Inhabited

namespace UsageError

/-- Whether the error is a request that is granted. -/
def isGranted : UsageError → Bool
  | .help | .version => true
  | _ => false

def exitCode (e : UsageError) : Nat :=
  if e.isGranted then 0 else 2

/-- The wording of the error. What the command line holds is shown without control
characters.
-/
def message : UsageError → String
  | .help | .helpWithoutCommand => ""
  | .version => ""
  | .missingCommand => "error: a command is required"
  | .unknownCommand => "error: unrecognized command"
  | .unknownArgument => "error: unexpected argument found"
  | .repeatedArgument => "error: an argument cannot be used multiple times"
  | .missingArgument => "error: a required argument was not provided"
  | .surplusValue => "error: unexpected value for an argument without value"
  | .invalidValue => "error: invalid or missing value for an argument"
  | .invalidLabel label fault =>
      Terminal.withoutControls
        s!"error: invalid value '{label}' for '--label <NAME=VALUE>': {fault.message label}"

end UsageError

end LogIntake
