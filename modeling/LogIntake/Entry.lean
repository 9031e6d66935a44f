import LogIntake.Json.Decode
import LogIntake.Json.Reader

/-! Log entries as the logging service writes them, reduced to the fields that a record is
made from. Other fields of the JSON document are ignored, and a field that is absent or null
is empty.
-/

namespace LogIntake

/-- The resource that an entry comes from. -/
structure Resource where
  kind : String
  labels : NameMap
  deriving Repr, DecidableEq, Inhabited

/-- A log entry. -/
structure Entry where
  logName : String
  resource : Resource
  timestamp : String
  receiveTimestamp : String
  severity : String
  labels : NameMap
  textPayload : String
  deriving Repr, DecidableEq, Inhabited

def Resource.empty : Resource :=
  ⟨"", .empty⟩

namespace Entry

def empty : Entry :=
  ⟨"", .empty, "", "", "", .empty, ""⟩

/-- Why a document is no entry. -/
inductive Fault where
  | document (cause : Json.DecodeError)
  | notObject
  deriving Repr, DecidableEq, Inhabited

def Fault.message : Fault → String
  | .document cause => cause.message
  | .notObject => "top-level value is not a JSON object"

/-- Decodes a value that may be null, which stands for a default. -/
def nullable {α : Type} (default : α) (decode : Json → Except Json.DecodeError α)
    : Json → Except Json.DecodeError α
  | .null => .ok default
  | value => decode value

def decodeText : Json → Except Json.DecodeError String :=
  nullable "" Json.asText

def decodeTexts : Json → Except Json.DecodeError NameMap :=
  nullable .empty Json.dataFormat.decodeTexts

def resourceFields : List (Field Json Json.DecodeError Resource) :=
  [⟨"type", fun resource value => do return { resource with kind := ← decodeText value }⟩,
   ⟨"labels", fun resource value => do
      return { resource with labels := ← decodeTexts value }⟩]

def decodeResource : Json → Except Json.DecodeError Resource :=
  nullable .empty
    (Json.dataFormat.decodeRecord "struct MonitoredResource" resourceFields .empty)

def fields : List (Field Json Json.DecodeError Entry) :=
  [⟨"logName", fun entry value => do return { entry with logName := ← decodeText value }⟩,
   ⟨"resource", fun entry value => do
      return { entry with resource := ← decodeResource value }⟩,
   ⟨"timestamp", fun entry value => do
      return { entry with timestamp := ← decodeText value }⟩,
   ⟨"receiveTimestamp", fun entry value => do
      return { entry with receiveTimestamp := ← decodeText value }⟩,
   ⟨"severity", fun entry value => do return { entry with severity := ← decodeText value }⟩,
   ⟨"labels", fun entry value => do return { entry with labels := ← decodeTexts value }⟩,
   ⟨"textPayload", fun entry value => do
      return { entry with textPayload := ← decodeText value }⟩]

/-- The entry that a value describes: null is the empty entry, and nothing but null and
objects describes one.
-/
def ofValue : Json → Except Fault Entry
  | .null => .ok empty
  | .obj members => (Json.dataFormat.storeMembers fields [] empty members).mapError .document
  | _ => .error .notObject

/-- Decodes an entry from the bytes of a document. -/
def decode (raw : List UInt8) : Except Fault Entry := do
  let value ← (Json.parse raw).mapError .document
  ofValue value

end Entry

end LogIntake
