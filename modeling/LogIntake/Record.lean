import LogIntake.Calendar.Relaxed
import LogIntake.Json.Printer
import LogIntake.Json.Record
import LogIntake.Label.RecordLabels

/-! Finished records: labels, an instant and a line, with their text form and their JSON
form.
-/

namespace LogIntake

/-- What the pipeline makes of a log entry. -/
structure Record where
  labels : RecordLabels
  timestamp : Calendar.Instant
  line : String
  deriving Repr, DecidableEq, Inhabited

/-- Reads labels whose names are fit for a record. -/
def RecordLabels.read : Json.Reader RecordLabels := fun bytes => do
  let (map, bytes) ← Json.readTextMap bytes
  let labels ← (ofMap map).mapError fun e => Json.DecodeError.rejected e.message
  return (labels, bytes)

def RecordLabels.decode (bytes : List UInt8) : Except Json.DecodeError RecordLabels :=
  Json.readDocument read bytes

def RecordLabels.toJson (labels : RecordLabels) : Json :=
  .ofTexts labels.toList

namespace Record

def display (record : Record) : String :=
  record.timestamp.text ++ " " ++ record.labels.display ++ " " ++ record.line

def toJson (record : Record) : Json :=
  .obj
    [("labels", record.labels.toJson), ("timestamp", .str record.timestamp.text),
     ("line", .str record.line)]

/-- A record of which some fields have been read. -/
structure Draft where
  labels : Option RecordLabels
  timestamp : Option Calendar.Instant
  line : Option String
  deriving Repr, DecidableEq, Inhabited

def readTimestamp : Json.Reader Calendar.Instant := fun bytes => do
  let (text, bytes) ←
    Json.readTextAs "an RFC 3339 formatted date and time string" bytes
  match Calendar.readRelaxed text.toList with
  | .ok instant => return (instant, bytes)
  | .error e => throw (.rejected e.message)

def required {α : Type} (name : String) : Option α → Except Json.DecodeError α
  | some value => .ok value
  | none => .error (.missingField name)

/-- Reading a record; all of its fields have to be present. -/
def kind : Json.RecordKind Draft Record where
  description := "struct LogRecord"
  fields :=
    [⟨"labels", [], fun draft => draft.labels.isSome, fun draft bytes => do
        let (value, bytes) ← RecordLabels.read bytes
        return ({ draft with labels := some value }, bytes)⟩,
     ⟨"timestamp", [], fun draft => draft.timestamp.isSome, fun draft bytes => do
        let (value, bytes) ← readTimestamp bytes
        return ({ draft with timestamp := some value }, bytes)⟩,
     ⟨"line", [], fun draft => draft.line.isSome, fun draft bytes => do
        let (value, bytes) ← Json.readText bytes
        return ({ draft with line := some value }, bytes)⟩]
  complete := true
  start := ⟨none, none, none⟩
  finish draft := do
    let labels ← required "labels" draft.labels
    let timestamp ← required "timestamp" draft.timestamp
    let line ← required "line" draft.line
    return ⟨labels, timestamp, line⟩

def decode (bytes : List UInt8) : Except Json.DecodeError Record :=
  Json.readDocument kind.read bytes

end Record

end LogIntake
