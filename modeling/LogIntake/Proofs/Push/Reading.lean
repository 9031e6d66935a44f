import LogIntake.Proofs.Json.MemberOrder
import LogIntake.Push

/-! Reading envelopes by their members. An envelope and the message in it are records, so what a
body decodes to depends on the members that both are written with, and an error of the message is
the error of the body.
-/

namespace LogIntake

open Json

-----------------------------------------------------------------------------------------
-- Fields
-----------------------------------------------------------------------------------------

/-- The fields of a message, each with what it reads and with its place in the draft. -/
def PushPayload.places : List (FieldPlace Draft) :=
  [⟨NameMap, "attributes", [], fun draft => draft.attributes.isSome, readTextMap,
    fun draft value => { draft with attributes := some value }⟩,
   ⟨String, "data", [], fun draft => draft.data.isSome, readText,
    fun draft value => { draft with data := some value }⟩,
   ⟨String, "message_id", ["messageId"], fun draft => draft.messageId.isSome, readText,
    fun draft value => { draft with messageId := some value }⟩,
   ⟨String, "publish_time", ["publishTime"], fun draft => draft.publishTime.isSome, readText,
    fun draft value => { draft with publishTime := some value }⟩]

theorem PushPayload.kind_fields : kind.fields = places.map FieldPlace.field := by
  rfl

/-- The fields of a message read their values in their whole extent. -/
theorem PushPayload.kind_faithful : kind.FieldsFaithful := by
  have text := readTextAs_faithful "a string"
  refine .of_places kind_fields ?_
  simp only [places, List.forall_mem_cons]
  exact ⟨readTextMap_faithful, text, text, text, nofun⟩

/-- The fields of a message keep apart, for each puts a value into a place of its own. -/
theorem PushPayload.kind_separate : kind.Separate := by
  refine .of_places kind_fields ?_ ?_
  · simp [places]
  · simp [places]

/-- The fields of an envelope, each with what it reads and with its place in the draft. -/
def PushMessage.places : List (FieldPlace Draft) :=
  [⟨PushPayload, "message", [], fun draft => draft.message.isSome, PushPayload.kind.read,
    fun draft value => { draft with message := some value }⟩,
   ⟨String, "subscription", [], fun draft => draft.subscription.isSome, readText,
    fun draft value => { draft with subscription := some value }⟩]

theorem PushMessage.kind_fields : kind.fields = places.map FieldPlace.field := by
  rfl

/-- The fields of an envelope read their values in their whole extent. -/
theorem PushMessage.kind_faithful : kind.FieldsFaithful := by
  refine .of_places kind_fields ?_
  simp only [places, List.forall_mem_cons]
  exact ⟨RecordKind.read_faithful PushPayload.kind_faithful, readTextAs_faithful "a string", nofun⟩

/-- The fields of an envelope keep apart, for each puts a value into a place of its own. -/
theorem PushMessage.kind_separate : kind.Separate := by
  refine .of_places kind_fields ?_ ?_
  · simp [places]
  · simp [places]

-----------------------------------------------------------------------------------------
-- Bodies
-----------------------------------------------------------------------------------------

namespace PushMessage

/-- A body is accepted if it reads as an envelope that has data and an identifier. -/
theorem decode_eq_ok_iff {body : List UInt8} {push : PushMessage}
    : decode body = .ok push ↔ readDocument kind.read body = .ok push ∧ push.check = .ok () := by
  unfold decode
  rw [bind_eq_ok_iff]
  constructor
  · rintro ⟨read, done, checks⟩
    obtain ⟨_, checked, returned⟩ := bind_eq_ok_iff.mp checks
    cases returned
    exact ⟨mapError_eq_ok_iff.mp done, checked⟩
  · rintro ⟨done, checked⟩
    exact ⟨push, mapError_eq_ok_iff.mpr done, bind_eq_ok_iff.mpr ⟨(), checked, rfl⟩⟩

/-- The body is an object with members before and after its message, and the message is an object
with members of its own.
-/
def MessageMembers (body : List UInt8) (before after members : List WrittenMember) : Prop :=
  ∃ text,
    objectMembers? body = some (before ++ ("message", text) :: after)
    ∧ objectMembers? text = some members

/-- The field of an envelope that holds its message. -/
def messageField : RecordField Draft :=
  ⟨"message", [], fun draft => draft.message.isSome, fun draft =>
    PushPayload.kind.read.map fun value => { draft with message := some value }⟩

theorem field?_message : kind.field? "message" = some messageField := by
  rfl

/-- In an accepted body the message stands behind members without a message, and by itself it reads
as a message.
-/
theorem message_of_decode {body text : List UInt8} {before after : List WrittenMember}
    {push : PushMessage} (accepted : decode body = .ok push)
    (written : objectMembers? body = some (before ++ ("message", text) :: after))
    : ∃ draft payload,
        kind.store kind.start before = .ok draft
        ∧ draft.message.isSome = false
        ∧ readDocument PushPayload.kind.read text = .ok payload := by
  obtain ⟨done, _⟩ := decode_eq_ok_iff.mp accepted
  obtain ⟨_, stored, _⟩ := (RecordKind.readDocument_eq_ok_iff kind_faithful written).mp done
  obtain ⟨draft, storedBefore, stored⟩ := RecordKind.store_append_eq_ok_iff.mp stored
  obtain ⟨_, message, _⟩ := RecordKind.store_cons_eq_ok_iff.mp stored
  rcases RecordKind.storeMember_eq_ok_iff.mp message with
    ⟨unknown, _⟩ | ⟨field, found, fresh, messageRead⟩
  · rw [field?_message] at unknown
    cases unknown
  · obtain rfl := Option.some.inj (field?_message.symm.trans found)
    dsimp only [messageField] at messageRead
    obtain ⟨payload, payloadRead, _⟩ := readDocument_map_eq_ok_iff.mp messageRead
    exact ⟨draft, payload, storedBefore, fresh, payloadRead⟩

/-- An accepted body that is an object has members, and a message in it that is an object has
members too. Both may be written as lists instead, which name no fields.
-/
theorem exists_messageMembers {body inner : List UInt8} {push : PushMessage}
    (accepted : decode body = .ok push) (isObject : skipBlanks body = byteOf '\x7b' :: inner)
    : ∃ members,
        objectMembers? body = some members
        ∧ ∀ text innerText,
            ("message", text) ∈ members
            → skipBlanks text = byteOf '\x7b' :: innerText
            → ∃ own, objectMembers? text = some own := by
  obtain ⟨done, _⟩ := decode_eq_ok_iff.mp accepted
  obtain ⟨members, written⟩ := RecordKind.exists_objectMembers kind_faithful done isObject
  refine ⟨members, written, fun text innerText member messageIsObject => ?_⟩
  obtain ⟨before, after, rfl⟩ := List.append_of_mem member
  obtain ⟨_, payload, _, _, messageRead⟩ := message_of_decode accepted written
  exact RecordKind.exists_objectMembers PushPayload.kind_faithful messageRead messageIsObject

/-- Where the message of an accepted body is written differently and reads the same, the body is
accepted with the same result.
-/
theorem decode_rewritten {body text rewritten rewrittenText : List UInt8} {push : PushMessage}
    {before after : List WrittenMember} (accepted : decode body = .ok push)
    (written : objectMembers? body = some (before ++ ("message", text) :: after))
    (writtenAgain : objectMembers? rewritten = some (before ++ ("message", rewrittenText) :: after))
    (same
      : readDocument PushPayload.kind.read rewrittenText
        = readDocument PushPayload.kind.read text)
    : decode rewritten = .ok push := by
  obtain ⟨done, checked⟩ := decode_eq_ok_iff.mp accepted
  refine decode_eq_ok_iff.mpr ⟨?_, checked⟩
  refine RecordKind.readDocument_respelled kind_faithful field?_message field?_message
    (fun draft => ?_) written writtenAgain done
  simp only [messageField, readDocument_map, same]

/-- Where the message of an accepted body is written so that it cannot be read, whatever follows it,
the body is refused with the same error.
-/
theorem decode_eq_error {body text rewritten rewrittenText : List UInt8} {push : PushMessage}
    {before after : List WrittenMember} {fault : DecodeError} (accepted : decode body = .ok push)
    (written : objectMembers? body = some (before ++ ("message", text) :: after))
    (writtenAgain : objectMembers? rewritten = some (before ++ ("message", rewrittenText) :: after))
    (fails : ∀ behind, PushPayload.kind.read (rewrittenText ++ behind) = .error fault)
    : decode rewritten = .error (.document fault) := by
  obtain ⟨draft, _, stored, fresh, _⟩ := message_of_decode accepted written
  obtain ⟨rest, members, _⟩ := objectMembers?_eq_some_iff.mp writtenAgain
  have failed : kind.read rewritten = .error fault := by
    refine RecordKind.read_eq_error kind_faithful members stored fun colon behind passed => ?_
    have notSet : ¬ messageField.isSet draft = true := by simp [messageField, fresh]
    rw [RecordKind.readMember_known field?_message notSet, memberValue, passed]
    change (PushPayload.kind.read (rewrittenText ++ behind) >>= _) = _
    rw [fails behind]
    rfl
  rw [decode, readDocument_eq_error failed]
  rfl

end PushMessage

end LogIntake
