import LogIntake.Command.Log
import LogIntake.Command.Run
import LogIntake.CommandLine.Help
import LogIntake.CommandLine.Parser
import Std.Time.DateTime.Timestamp

/-! The program: reads the command line and what its command needs of the world, sets up the log,
runs the command, and writes what comes of it. No entries are written to the log.
-/

namespace LogIntake

/-- The reason why a file cannot be read, as the system gives it. -/
def fileError : IO.Error → FileError
  | .noFileOrDirectory _ _ _ => .notFound
  | .inappropriateType _ code _ => if code = 20 then .notDirectory else .isDirectory
  | e => .other (toString e)

def readPath (path : String) : IO (Except FileError Contents) := do
  try return .ok (.bytes (← IO.FS.readBinFile path).toList)
  catch e =>
    match fileError e with
    | .isDirectory => return .ok .directory
    | e => return .error e

def readFiles (paths : List String) : IO Files := do
  let entries ← paths.mapM fun path => do return (path, ← readPath path)
  return fun path => (entries.lookup path).getD (.error .notFound)

/-- The variables of the given names that are set. -/
def readVariables (names : List String) : IO NameMap := do
  let entries ← names.mapM fun name => do return (name, ← IO.getEnv name)
  return .ofList (entries.filterMap fun entry => entry.2.map fun value => (entry.1, value))

def readClock : IO Calendar.Instant := do
  let now ← Std.Time.Timestamp.now
  return ⟨now.toSecondsSinceUnixEpoch.val, now.val.nano.val.toNat⟩

/-- The standard input, if the command reads it. -/
def readInput (invocation : Invocation) : IO (Except FileError (List UInt8)) := do
  if !invocation.readsInput then return .ok []
  try return .ok (← (← IO.getStdin).readBinToEnd).toList
  catch e => return .error (fileError e)

def readEmphasis : IO Bool := do
  return (← (← IO.getStdout).isTty) && (← IO.getEnv "NO_COLOR").isNone

/-- Runs the command of an invocation once the log is set up. The exit code is the result. -/
def runInvocation (invocation : Invocation) : IO UInt32 := do
  let files ← readFiles invocation.paths
  let environment ← readVariables Settings.variableNames
  match invocation.startLog files environment with
  | .error e =>
      IO.eprintln ("error: " ++ e.message)
      return e.exitCode.toUInt32
  | .ok _ =>
      let outcome := invocation.run
        ⟨files, environment, ← readInput invocation, ← readClock, ← readEmphasis⟩
      IO.print outcome.output
      if let some e := outcome.error then IO.eprintln ("error: " ++ e.message)
      return outcome.exitCode.toUInt32

end LogIntake

open LogIntake in
def main (args : List String) : IO UInt32 := do
  match CommandLine.parse args with
  | .error e =>
      if e.isGranted then IO.print (CommandLine.usageText e)
      else IO.eprint (CommandLine.usageText e)
      return e.exitCode.toUInt32
  | .ok invocation => runInvocation invocation
