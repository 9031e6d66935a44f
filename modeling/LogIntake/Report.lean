import LogIntake.Formatter
import LogIntake.Metrics
import LogIntake.Terminal

/-! Running the pipeline over an input of many lines. Blank lines count for the numbering
only; every other line is an entry, or a push request, that is formatted, dropped or failed,
and no line has an influence on another.
-/

namespace LogIntake

/-- A line that could not be formatted: its number, counted from one and with the blank lines,
the kind of failure, and its wording.
-/
structure Failure where
  line : Nat
  kind : String
  error : String
  deriving Repr, DecidableEq, Inhabited

/-- What became of the lines of an input. -/
structure Report where
  total : Nat
  formatted : Nat
  dropped : Nat
  failed : Nat
  records : List Record
  errors : List Failure
  deriving Repr, DecidableEq, Inhabited

namespace Report

def empty : Report :=
  ⟨0, 0, 0, 0, [], []⟩

/-- The parts of a byte string between its line feeds. -/
def splitLines : List UInt8 → List (List UInt8)
  | [] => [[]]
  | byte :: rest =>
      match splitLines rest with
      | line :: lines => if byte = 0x0A then [] :: line :: lines else (byte :: line) :: lines
      | [] => [[byte]]

/-- The line without one carriage return at its end. -/
def dropCarriageReturn (line : List UInt8) : List UInt8 :=
  if line.getLast? = some 0x0D then line.dropLast else line

def isBlank (byte : UInt8) : Bool :=
  byte = 0x20 || byte = 0x09 || byte = 0x0A || byte = 0x0C || byte = 0x0D

/-- The lines that hold entries, with their numbers. -/
def entryLines (input : List UInt8) : List (Nat × List UInt8) :=
  let lines := (splitLines input).map dropCarriageReturn
  (lines.zipIdx 1).filterMap fun (line, number) =>
    if line.all isBlank then none else some (number, line)

abbrev Outcome :=
  Except FormatError (Option Record)

/-- Adds what became of the entry on a line. Records and errors are added at the front. -/
def add (report : Report) (line : Nat) : Outcome → Report
  | .ok (some record) =>
      { report with total := report.total + 1, formatted := report.formatted + 1,
                    records := record :: report.records }
  | .ok none => { report with total := report.total + 1, dropped := report.dropped + 1 }
  | .error e =>
      { report with total := report.total + 1, failed := report.failed + 1,
                    errors := ⟨line, e.kind, e.message⟩ :: report.errors }

def count (counters : Counters) (outcome : Outcome) : Counters :=
  (counters.increment .entries).increment
    (match outcome with
     | .ok (some _) => .formatted
     | .ok none => .dropped
     | .error e => .failed e.kind)

/-- Formats a line as an entry or as a push request. -/
def formatLine (formatter : Formatter) (now : Calendar.Instant) (push : Bool)
    (line : List UInt8)
    : Outcome :=
  if push then formatter.formatPush now line else formatter.format now line

/-- The report on outcomes by line, with the counters after the run. -/
def ofOutcomes (outcomes : List (Nat × Outcome)) : Report × Counters :=
  let report := outcomes.foldl (fun report outcome => add report outcome.1 outcome.2) empty
  let counters := outcomes.foldl (fun counters outcome => count counters outcome.2) []
  ({ report with records := report.records.reverse, errors := report.errors.reverse },
   counters)

def process (formatter : Formatter) (now : Calendar.Instant) (push : Bool)
    (input : List UInt8)
    : Report × Counters :=
  ofOutcomes ((entryLines input).map fun (number, line) =>
    (number, formatLine formatter now push line))

open Terminal in
/-- The text form: the records, the errors and a summary, each on a line. -/
def render (emphasis : Bool) (report : Report) : String :=
  let records := report.records.map fun record => record.display ++ "\n"
  let errors := report.errors.map fun failure =>
    paint emphasis (boldColoured .red) "error"
      ++ s!" line {failure.line} ({failure.kind}): {failure.error}\n"
  let failed := paint emphasis (if 0 < report.failed then coloured .red else plain)
    (toString report.failed)
  String.join records ++ String.join errors
    ++ paint emphasis bold (toString report.total) ++ " entries: "
    ++ paint emphasis (coloured .green) (toString report.formatted) ++ " formatted, "
    ++ paint emphasis (coloured .yellow) (toString report.dropped) ++ " dropped, "
    ++ failed ++ " failed\n"

def failureJson (failure : Failure) : Json :=
  .obj
    [("line", .num (.natural failure.line)), ("kind", .str failure.kind),
     ("error", .str failure.error)]

def toJson (report : Report) : Json :=
  .obj
    [("total", .num (.natural report.total)), ("formatted", .num (.natural report.formatted)),
     ("dropped", .num (.natural report.dropped)), ("failed", .num (.natural report.failed)),
     ("records", .arr (report.records.map Record.toJson)),
     ("errors", .arr (report.errors.map failureJson))]

end Report

end LogIntake
