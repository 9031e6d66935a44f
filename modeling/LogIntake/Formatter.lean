import LogIntake.Calendar.Layout
import LogIntake.InternalLabels
import LogIntake.Label.Publish
import LogIntake.Record

/-! From an entry to a record. The labels go through assembly, relabelling and publication;
timestamp and line are decided beside them, each by a policy of its own. Relabelling may drop
the entry, and then no timestamp is looked at.
-/

namespace LogIntake

/-- Why an entry has no record. -/
inductive FormatError where
  | decode (cause : Entry.Fault)
  | timestampParse (text : String) (cause : Calendar.LayoutError)
  | missingTimestamp
  | invalidPushMessage (cause : PushMessage.Fault)
  | pushDataDecode (cause : Text.Base64.DecodeError)
  deriving Repr, DecidableEq, Inhabited

namespace FormatError

def kind : FormatError → String
  | .decode _ => "decode"
  | .timestampParse _ _ => "timestamp_parse"
  | .missingTimestamp => "missing_timestamp"
  | .invalidPushMessage _ => "invalid_push_message"
  | .pushDataDecode _ => "push_data_decode"

def message : FormatError → String
  | .decode cause => "failed to decode log entry: " ++ cause.message
  | .timestampParse text cause => s!"invalid timestamp '{text}': {cause.message}"
  | .missingTimestamp => "no usable timestamp found in log entry"
  | .invalidPushMessage cause => "invalid push message: " ++ cause.message
  | .pushDataDecode cause => "failed to decode push message data: " ++ cause.message

end FormatError

/-- The instant that stands for no timestamp at all: the first of the year one. -/
def zeroInstant : Calendar.Instant :=
  ⟨-62135596800, 0⟩

namespace Entry

/-- The text that an entry's instant is read from: the timestamp, or the time of receipt if
that is empty.
-/
def timestampText (entry : Entry) : String :=
  if entry.timestamp.isEmpty then entry.receiveTimestamp else entry.timestamp

def statedInstant (entry : Entry) : Except FormatError Calendar.Instant :=
  let text := entry.timestampText
  if text.isEmpty then .error .missingTimestamp
  else
    match Calendar.readLayout (Text.Utf8.encode text) with
    | .error cause => .error (.timestampParse text cause)
    | .ok instant =>
        if instant = zeroInstant then .error .missingTimestamp else .ok instant

/-- The instant of the record: the stated one if it is adopted, else the time of processing. -/
def instant (entry : Entry) (adopt : Bool) (now : Calendar.Instant)
    : Except FormatError Calendar.Instant :=
  if adopt then entry.statedInstant else .ok now

def isBlankText (text : String) : Bool :=
  text.toList.all fun c => Unicode.Property.whiteSpace.contains c.toNat

/-- The line of the record: the text payload, or the whole entry as it was received if the
payload is blank or full lines are wanted.
-/
def recordLine (entry : Entry) (raw : List UInt8) (full : Bool) : String :=
  if !full && !isBlankText entry.textPayload then entry.textPayload
  else Text.Utf8.decodeLossy raw

end Entry

/-- The configuration of the pipeline: labels for every record, the relabelling, which may
drop an entry, the two policies, and the cleaning of keys.
-/
structure Formatter where
  static : RecordLabels
  relabel : LabelSet → Option LabelSet
  useIncomingTimestamp : Bool
  useFullLine : Bool
  sanitize : String → String

namespace Formatter

/-- No static labels, no relabelling, both policies off. -/
def default : Formatter :=
  ⟨.empty, some, false, false, Label.sanitize⟩

/-- Formats an entry over base labels. The result is none if relabelling drops the entry. -/
def formatWithBase (formatter : Formatter) (now : Calendar.Instant) (raw : List UInt8)
    (base : LabelSet)
    : Except FormatError (Option Record) := do
  let entry ← (Entry.decode raw).mapError .decode
  match formatter.relabel (InternalLabels.assemble entry base formatter.sanitize) with
  | none => return none
  | some labels =>
      let timestamp ← entry.instant formatter.useIncomingTimestamp now
      return some
        { labels := labels.publish formatter.static, timestamp,
          line := entry.recordLine raw formatter.useFullLine }

def format (formatter : Formatter) (now : Calendar.Instant) (raw : List UInt8)
    : Except FormatError (Option Record) :=
  formatter.formatWithBase now raw .empty

/-- Formats the entry that a push request delivers, over the labels of its envelope. -/
def formatPush (formatter : Formatter) (now : Calendar.Instant) (body : List UInt8)
    : Except FormatError (Option Record) := do
  let push ← (PushMessage.decode body).mapError .invalidPushMessage
  let raw ← push.payload.mapError .pushDataDecode
  formatter.formatWithBase now raw (InternalLabels.ofPush push formatter.sanitize)

/-- The labels of a map as a list of quoted pairs between braces. -/
def debugLabels (labels : RecordLabels) : String :=
  let pairs := labels.toList.map fun entry =>
    Text.Quoted.quote entry.1 ++ ": " ++ Text.Quoted.quote entry.2
  "\x7b" ++ ", ".intercalate pairs ++ "\x7d"

/-- A description of the formatter for diagnostics. -/
def debugText (formatter : Formatter) : String :=
  "GcpLogFormatter \x7b static_labels: RecordLabels(" ++ debugLabels formatter.static
    ++ s!"), use_incoming_timestamp: {formatter.useIncomingTimestamp}"
    ++ s!", use_full_line: {formatter.useFullLine}, .. \x7d"

end Formatter

end LogIntake
