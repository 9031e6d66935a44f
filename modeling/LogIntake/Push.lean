import LogIntake.Json.Record
import LogIntake.Text.Base64

/-! Push requests: envelopes in which a subscription delivers a log entry as Base64 data
together with attributes of its own.
-/

namespace LogIntake

/-- The message inside an envelope. -/
structure PushPayload where
  attributes : NameMap
  data : String
  messageId : String
  publishTime : String
  deriving Repr, DecidableEq, Inhabited

/-- An envelope. -/
structure PushMessage where
  message : PushPayload
  subscription : String
  deriving Repr, DecidableEq, Inhabited

/-- The message without content, which stands for an absent one. -/
def PushPayload.empty : PushPayload :=
  ⟨.empty, "", "", ""⟩

/-- A message of which some fields have been read. -/
structure PushPayload.Draft where
  attributes : Option NameMap
  data : Option String
  messageId : Option String
  publishTime : Option String
  deriving Repr, DecidableEq, Inhabited

/-- Reading a message; the identifier and the publishing time have two spellings each. -/
def PushPayload.kind : Json.RecordKind PushPayload.Draft PushPayload where
  description := "struct PubSubMessage"
  fields :=
    [⟨"attributes", [], fun draft => draft.attributes.isSome, fun draft bytes => do
        let (value, bytes) ← Json.readTextMap bytes
        return ({ draft with attributes := some value }, bytes)⟩,
     ⟨"data", [], fun draft => draft.data.isSome, fun draft bytes => do
        let (value, bytes) ← Json.readText bytes
        return ({ draft with data := some value }, bytes)⟩,
     ⟨"message_id", ["messageId"], fun draft => draft.messageId.isSome, fun draft bytes => do
        let (value, bytes) ← Json.readText bytes
        return ({ draft with messageId := some value }, bytes)⟩,
     ⟨"publish_time", ["publishTime"], fun draft => draft.publishTime.isSome,
      fun draft bytes => do
        let (value, bytes) ← Json.readText bytes
        return ({ draft with publishTime := some value }, bytes)⟩]
  complete := false
  start := ⟨none, none, none, none⟩
  finish draft := .ok
    ⟨draft.attributes.getD .empty, draft.data.getD "", draft.messageId.getD "",
     draft.publishTime.getD ""⟩

/-- An envelope of which some fields have been read. -/
structure PushMessage.Draft where
  message : Option PushPayload
  subscription : Option String
  deriving Repr, DecidableEq, Inhabited

def PushMessage.kind : Json.RecordKind PushMessage.Draft PushMessage where
  description := "struct PushMessage"
  fields :=
    [⟨"message", [], fun draft => draft.message.isSome, fun draft bytes => do
        let (value, bytes) ← PushPayload.kind.read bytes
        return ({ draft with message := some value }, bytes)⟩,
     ⟨"subscription", [], fun draft => draft.subscription.isSome, fun draft bytes => do
        let (value, bytes) ← Json.readText bytes
        return ({ draft with subscription := some value }, bytes)⟩]
  complete := false
  start := ⟨none, none⟩
  finish draft := .ok ⟨draft.message.getD .empty, draft.subscription.getD ""⟩

namespace PushMessage

/-- Why a request body is no usable envelope. -/
inductive Fault where
  | document (cause : Json.DecodeError)
  | noData
  | noId
  deriving Repr, DecidableEq, Inhabited

def Fault.message : Fault → String
  | .document cause => cause.message
  | .noData => "push message has no data"
  | .noId => "push message has no ID"

/-- An envelope needs data and an identifier, and the data is asked for first. -/
def check (push : PushMessage) : Except Fault Unit :=
  if push.message.data.isEmpty then .error .noData
  else if push.message.messageId.isEmpty then .error .noId
  else .ok ()

def decode (body : List UInt8) : Except Fault PushMessage := do
  let push ← (Json.readDocument kind.read body).mapError .document
  push.check
  return push

/-- The bytes of the entry that the envelope delivers. -/
def payload (push : PushMessage) : Except Text.Base64.DecodeError (List UInt8) :=
  Text.Base64.decode (Text.Utf8.encode push.message.data)

end PushMessage

end LogIntake
