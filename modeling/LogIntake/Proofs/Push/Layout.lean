import LogIntake.InternalLabels
import LogIntake.Proofs.Json.Grammar.Objects
import LogIntake.Proofs.Push.Reading

/-! The layout of envelopes. The members of an envelope and those of its message may stand in any
order, with unknown members between them, and the body says the same.
-/

namespace LogIntake.PushMessage

open Json

/-- A member of an envelope stays as it is written, or it is a message whose own members are
rearranged.
-/
inductive KeepsMember : WrittenMember → WrittenMember → Prop
  | same (member) : KeepsMember member member
  | message {text other own others} (written : WritesObject own text)
    (writtenAgain : WritesObject others other)
    (rearranged : PushPayload.kind.Rearranged own others)
    : KeepsMember ("message", text) ("message", other)

/-- Both bodies are objects, and the second one is the first one laid out anew: the members of the
envelope are rearranged, and so are those of its message.
-/
def LaidOutAnew (body other : List UInt8) : Prop :=
  ∃ members kept others,
    WritesObject members body
    ∧ List.Forall₂ KeepsMember members kept
    ∧ kind.Rearranged kept others
    ∧ WritesObject others other

/-- The names that are known in a message and in an envelope. -/
example
    : PushPayload.kind.memberNames
        = ["attributes", "data", "message_id", "messageId", "publish_time", "publishTime"]
      ∧ kind.memberNames = ["message", "subscription"] :=
  ⟨rfl, rfl⟩

/-- A member that is kept is stored as before. -/
theorem KeepsMember.storeMember {member other : WrittenMember} {draft next : Draft}
    (keeps : KeepsMember member other) (stored : kind.storeMember draft member = .ok next)
    : kind.storeMember draft other = .ok next := by
  cases keeps with
  | same => exact stored
  | message written writtenAgain rearranged =>
      rcases RecordKind.storeMember_eq_ok_iff.mp stored with
        ⟨unknown, _⟩ | ⟨field, found, fresh, messageRead⟩
      · rw [field?_message] at unknown
        cases unknown
      · obtain rfl := Option.some.inj (field?_message.symm.trans found)
        dsimp only [messageField] at messageRead
        obtain ⟨payload, payloadRead, put⟩ := readDocument_map_eq_ok_iff.mp messageRead
        have payloadReadAgain :=
          RecordKind.readDocument_rearranged PushPayload.kind_faithful PushPayload.kind_separate
            rearranged (objectMembers?_eq_some_iff_writes.mpr written)
            (objectMembers?_eq_some_iff_writes.mpr writtenAgain) payloadRead
        refine RecordKind.storeMember_eq_ok_iff.mpr (.inr ⟨messageField, found, fresh, ?_⟩)
        dsimp only [messageField]
        exact readDocument_map_eq_ok_iff.mpr ⟨payload, payloadReadAgain, put⟩

/-- Members that are kept one by one are stored as before, by induction on them. -/
theorem store_kept {members kept : List WrittenMember} {draft final : Draft}
    (keeps : List.Forall₂ KeepsMember members kept) (stored : kind.store draft members = .ok final)
    : kind.store draft kept = .ok final := by
  induction keeps generalizing draft with
  | nil => exact stored
  | cons first _ ih =>
      obtain ⟨next, memberStored, remaining⟩ := RecordKind.store_cons_eq_ok_iff.mp stored
      exact RecordKind.store_cons_eq_ok_iff.mpr ⟨next, first.storeMember memberStored, ih remaining⟩

/-- What an envelope reads as does not depend on its layout. -/
theorem LaidOutAnew.readDocument {body other : List UInt8} {push : PushMessage}
    (laidOut : LaidOutAnew body other) (done : readDocument kind.read body = .ok push)
    : readDocument kind.read other = .ok push := by
  obtain ⟨members, kept, others, written, keeps, rearranged, writtenAgain⟩ := laidOut
  have members := objectMembers?_eq_some_iff_writes.mpr written
  have membersAgain := objectMembers?_eq_some_iff_writes.mpr writtenAgain
  obtain ⟨draft, stored, finished⟩ :=
    (RecordKind.readDocument_eq_ok_iff kind_faithful members).mp done
  refine (RecordKind.readDocument_eq_ok_iff kind_faithful membersAgain).mpr ⟨draft, ?_, finished⟩
  exact RecordKind.store_rearranged kind_separate rearranged (store_kept keeps stored)

theorem check_eq_ok_iff {push : PushMessage}
    : push.check = .ok () ↔ push.message.data ≠ "" ∧ push.message.messageId ≠ "" := by
  unfold check
  split_ifs with noData noId
  · simp [String.isEmpty_iff.mp noData]
  · simp [String.isEmpty_iff.mp noId]
  · simp [String.isEmpty_iff.not.mp noData, String.isEmpty_iff.not.mp noId]

/-- An accepted body has data and an identifier. If it is an object, it is written with members, and
so is its message if that is an object. Every body that is laid out anew is accepted with the same
result, and so with the same labels and the same bytes of the entry.
-/
theorem decode_laidOutAnew {body : List UInt8} {push : PushMessage}
    (accepted : decode body = .ok push)
    : push.message.data ≠ ""
      ∧ push.message.messageId ≠ ""
      ∧ (∀ inner,
          skipBlanks body = byteOf '\x7b' :: inner
          → ∃ members,
              WritesObject members body
              ∧ ∀ text textInner,
                  ("message", text) ∈ members
                  → skipBlanks text = byteOf '\x7b' :: textInner
                  → ∃ own, WritesObject own text)
      ∧ ∀ other,
          LaidOutAnew body other
          → decode other = .ok push
            ∧ (∀ sanitize,
                (decode other).map (InternalLabels.ofPush · sanitize)
                = .ok (InternalLabels.ofPush push sanitize))
            ∧ (decode other).map payload = .ok push.payload := by
  obtain ⟨done, checked⟩ := decode_eq_ok_iff.mp accepted
  obtain ⟨hasData, hasId⟩ := check_eq_ok_iff.mp checked
  refine ⟨hasData, hasId, fun inner isObject => ?_, fun other laidOut => ?_⟩
  · simp only [← objectMembers?_eq_some_iff_writes]
    exact exists_messageMembers accepted isObject
  · have decoded : decode other = .ok push :=
      decode_eq_ok_iff.mpr ⟨laidOut.readDocument done, checked⟩
    rw [decoded]
    exact ⟨rfl, fun _ => rfl, rfl⟩

/-- An envelope with its members in another order, and with unknown ones in it and in its message.
-/
theorem decode_laidOutAnew_trace
    : let push : PushMessage := ⟨⟨.insert .empty "k" "v", "e30=", "7", ""⟩, "s"⟩
      let message :=
        "\x7b\"data\":\"e30=\",\"messageId\":\"7\",\"attributes\":\x7b\"k\":\"v\"\x7d\x7d"
      let messageAnew :=
        " \x7b\"attributes\":\x7b\"k\":\"v\"\x7d, \"orderingKey\":\"x\","
        ++ "\"messageId\":\"7\",\"data\":\"e30=\"\x7d"
      let body := Text.Utf8.encode
        ("\x7b\"message\":" ++ message ++ ",\"subscription\":\"s\"\x7d")
      let other := Text.Utf8.encode
        ("\x7b\"trace\":[1,\x7b\"deep\":[null,-2.5e3]\x7d],\"subscription\":\"s\","
          ++ "\"message\":" ++ messageAnew ++ "\x7d")
      decode body = .ok push ∧ decode other = .ok push := by
  intro push message messageAnew body other
  let attributes : WrittenMember := ("attributes", Text.Utf8.encode "\x7b\"k\":\"v\"\x7d")
  let data : WrittenMember := ("data", Text.Utf8.encode "\"e30=\"")
  let messageId : WrittenMember := ("messageId", Text.Utf8.encode "\"7\"")
  let orderingKey : WrittenMember := ("orderingKey", Text.Utf8.encode "\"x\"")
  let subscription : WrittenMember := ("subscription", Text.Utf8.encode "\"s\"")
  let trace : WrittenMember := ("trace", Text.Utf8.encode "[1,\x7b\"deep\":[null,-2.5e3]\x7d]")
  have writes {bytes : List UInt8} {members : List WrittenMember}
      (written : objectMembers? bytes = some members)
      : WritesObject members bytes :=
    objectMembers?_eq_some_iff_writes.mp written
  have messageKept
      : KeepsMember ("message", Text.Utf8.encode message)
          ("message", Text.Utf8.encode messageAnew) := by
    have own : WritesObject [data, messageId, attributes] (Text.Utf8.encode message) :=
      writes (by decide +kernel)
    have others
        : WritesObject [attributes, orderingKey, messageId, data] (Text.Utf8.encode messageAnew) :=
      writes (by decide +kernel)
    exact .message own others ⟨[orderingKey], by decide +kernel, by decide +kernel⟩
  have laidOut : LaidOutAnew body other := by
    let kept := [("message", Text.Utf8.encode messageAnew), subscription]
    refine ⟨[("message", Text.Utf8.encode message), subscription], kept,
      [trace, subscription, ("message", Text.Utf8.encode messageAnew)], writes (by decide +kernel),
      .cons messageKept (.cons (.same _) .nil), ⟨[trace], by decide +kernel, by decide +kernel⟩,
      writes (by decide +kernel)⟩
  have accepted : decode body = .ok push := by decide +kernel
  exact ⟨accepted, ((decode_laidOutAnew accepted).2.2.2 other laidOut).1⟩

end LogIntake.PushMessage
