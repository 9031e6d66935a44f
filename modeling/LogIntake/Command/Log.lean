import LogIntake.Command.Settings
import LogIntake.CommandLine.Invocation

/-! The log that the program keeps of itself. It is set up before the command runs, from settings
that need not be readable: the command is what reports on them.
-/

namespace LogIntake

/-- Why the log cannot be set up. -/
inductive LogError where
  | unknownFormat (format : String)
  deriving Repr, DecidableEq, Inhabited

namespace LogError

def message : LogError → String
  | .unknownFormat format =>
      s!"configuration error: unknown log format '{format}', expected 'json' or 'pretty'"

def exitCode : LogError → Nat
  | .unknownFormat _ => 2

end LogError

namespace Settings

/-- The settings of a file as it states them, without the environment. -/
def readFile (files : Files) (path : String) : Except LoadError Settings :=
  match files.readText path with
  | .ok document => (parse document >>= validate).mapError .settings
  | .error .notFound => .error (.settings (.missingFile path))
  | .error e => .error (.file e)

end Settings

namespace Invocation

/-- How the log is kept: as the settings of the file say, or the default ones if they cannot be had,
with the environment and then the command line over them.
-/
def logSettings (invocation : Invocation) (files : Files) (environment : NameMap) : General :=
  let stated :=
    match Settings.readFile files invocation.settingsPath with
    | .ok settings => settings
    | .error _ => .default
  let general := (stated.override environment).general
  match invocation.logLevel with
  | some level => { general with logLevel := level }
  | none => general

/-- Sets up the log if its format is known. Any level will do. -/
def startLog (invocation : Invocation) (files : Files) (environment : NameMap)
    : Except LogError General :=
  let general := invocation.logSettings files environment
  if General.formats.contains general.logFormat then .ok general
  else .error (.unknownFormat general.logFormat)

end Invocation

end LogIntake
