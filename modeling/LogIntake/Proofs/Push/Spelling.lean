import LogIntake.Proofs.Push.Reading

/-! The two spellings of the fields of a message. A message may use either of them, and a message
that uses both is refused, even if both say the same.
-/

namespace LogIntake

open Json

/-- The fields of a message that have two spellings: the name that errors report, a spelling and the
other one.
-/
def PushPayload.spellings : List (String × String × String) :=
  [("message_id", "message_id", "messageId"), ("message_id", "messageId", "message_id"),
   ("publish_time", "publish_time", "publishTime"),
   ("publish_time", "publishTime", "publish_time")]

/-- Both spellings belong to one field, and this field reads a text. -/
theorem PushPayload.field?_spellings {name spelling other : String}
    (spelled : (name, spelling, other) ∈ spellings)
    : ∃ field,
        kind.field? spelling = some field
        ∧ kind.field? other = some field
        ∧ field.name = name
        ∧ ∀ draft, ∃ put : String → Draft, field.read draft = readText.map put := by
  simp only [spellings, List.mem_cons, Prod.mk.injEq, List.not_mem_nil, or_false] at spelled
  rcases spelled with ⟨rfl, rfl, rfl⟩ | ⟨rfl, rfl, rfl⟩ | ⟨rfl, rfl, rfl⟩ | ⟨rfl, rfl, rfl⟩
  · exact ⟨_, rfl, rfl, rfl, fun draft => ⟨({ draft with messageId := some · }), rfl⟩⟩
  · exact ⟨_, rfl, rfl, rfl, fun draft => ⟨({ draft with messageId := some · }), rfl⟩⟩
  · exact ⟨_, rfl, rfl, rfl, fun draft => ⟨({ draft with publishTime := some · }), rfl⟩⟩
  · exact ⟨_, rfl, rfl, rfl, fun draft => ⟨({ draft with publishTime := some · }), rfl⟩⟩

namespace PushMessage

/-- Respelling a member of the message of an accepted body keeps what the body says. Adding a member
of the other spelling, anywhere and even if it says the same, makes a body that is refused, for the
two spellings are one field, and a field may come once only.
-/
theorem decode_respelled {body value text : List UInt8} {push : PushMessage}
    {before after first second : List WrittenMember} {name spelling other : String}
    (spelled : (name, spelling, other) ∈ PushPayload.spellings)
    (accepted : decode body = .ok push)
    (members : MessageMembers body before after (first ++ (spelling, value) :: second))
    (same : readDocument readText text = readDocument readText value)
    : (∀ respelled,
        MessageMembers respelled before after (first ++ (other, text) :: second)
        → decode respelled = .ok push)
      ∧ ∀ extended front back,
          first ++ (spelling, value) :: second = front ++ back
          → MessageMembers extended before after (front ++ (other, text) :: back)
          → decode extended = .error (.document (.duplicateField name)) := by
  obtain ⟨field, found, otherFound, rfl, reads⟩ := PushPayload.field?_spellings spelled
  obtain ⟨message, written, messageMembers⟩ := members
  obtain ⟨_, payload, _, _, payloadRead⟩ := message_of_decode accepted written
  have sameRead (draft : PushPayload.Draft)
      : readDocument (field.read draft) text = readDocument (field.read draft) value := by
    obtain ⟨put, readsText⟩ := reads draft
    rw [readsText, readDocument_map, readDocument_map, same]
  constructor
  · rintro respelled ⟨respelledMessage, writtenAgain, respelledMembers⟩
    refine decode_rewritten accepted written writtenAgain ?_
    rw [payloadRead]
    exact RecordKind.readDocument_respelled PushPayload.kind_faithful found otherFound sameRead
      messageMembers respelledMembers payloadRead
  · rintro extended front back split ⟨extendedMessage, writtenAgain, extendedMembers⟩
    refine decode_eq_error accepted written writtenAgain ?_
    exact RecordKind.read_repeated PushPayload.kind_faithful PushPayload.kind_separate found
      otherFound sameRead messageMembers split extendedMembers payloadRead

/-- An identifier in its other spelling, with an escape in its value, in place of the first one and
then in front of everything else.
-/
theorem decode_respelled_messageId
    : let body (message : String) :=
        Text.Utf8.encode ("\x7b\"subscription\":\"s\",\"message\":" ++ message ++ "\x7d")
      let push : PushMessage := ⟨⟨.empty, "e30=", "7", ""⟩, "s"⟩
      decode (body "\x7b\"data\":\"e30=\",\"message_id\":\"7\"\x7d") = .ok push
      ∧ decode (body "\x7b\"data\":\"e30=\",\"messageId\": \"\\u0037\"\x7d") = .ok push
      ∧ decode (body "\x7b\"messageId\": \"\\u0037\",\"data\":\"e30=\",\"message_id\":\"7\"\x7d")
        = .error (.document (.duplicateField "message_id")) := by
  intro body push
  let message := "\x7b\"data\":\"e30=\",\"message_id\":\"7\"\x7d"
  let respelled := "\x7b\"data\":\"e30=\",\"messageId\": \"\\u0037\"\x7d"
  let extended := "\x7b\"messageId\": \"\\u0037\",\"data\":\"e30=\",\"message_id\":\"7\"\x7d"
  let before : List WrittenMember := [("subscription", Text.Utf8.encode "\"s\"")]
  let data : WrittenMember := ("data", Text.Utf8.encode "\"e30=\"")
  let value := Text.Utf8.encode "\"7\""
  let text := Text.Utf8.encode " \"\\u0037\""
  have spelled : ("message_id", "message_id", "messageId") ∈ PushPayload.spellings := by decide
  have accepted : decode (body message) = .ok push := by decide +kernel
  have same : readDocument readText text = readDocument readText value := by decide +kernel
  have members
      : MessageMembers (body message) before [] ([data] ++ ("message_id", value) :: []) :=
    ⟨Text.Utf8.encode message, by decide +kernel, by decide +kernel⟩
  have respelledMembers
      : MessageMembers (body respelled) before [] ([data] ++ ("messageId", text) :: []) :=
    ⟨Text.Utf8.encode respelled, by decide +kernel, by decide +kernel⟩
  have extendedMembers
      : MessageMembers (body extended) before []
          ([] ++ ("messageId", text) :: [data, ("message_id", value)]) :=
    ⟨Text.Utf8.encode extended, by decide +kernel, by decide +kernel⟩
  obtain ⟨keeps, refuses⟩ := decode_respelled spelled accepted members same
  exact ⟨accepted, keeps _ respelledMembers, refuses _ [] _ rfl extendedMembers⟩

/-- A message that has its identifier in both spellings is refused. -/
theorem both_spellings_are_refused
    : ¬ ∀ (body extended value : List UInt8) (push : PushMessage)
          (before after first second : List WrittenMember),
          decode body = .ok push
          → MessageMembers body before after (first ++ ("message_id", value) :: second)
          → MessageMembers extended before after
              (first ++ ("message_id", value) :: ("messageId", value) :: second)
          → decode extended = .ok push := by
  intro keep
  let body := Text.Utf8.encode
    "\x7b\"message\":\x7b\"data\":\"e30=\",\"message_id\":\"7\"\x7d,\"subscription\":\"s\"\x7d"
  let extended := Text.Utf8.encode
    ("\x7b\"message\":\x7b\"data\":\"e30=\",\"message_id\":\"7\",\"messageId\":\"7\"\x7d,"
      ++ "\"subscription\":\"s\"\x7d")
  let after : List WrittenMember := [("subscription", Text.Utf8.encode "\"s\"")]
  let data : WrittenMember := ("data", Text.Utf8.encode "\"e30=\"")
  let value := Text.Utf8.encode "\"7\""
  let push : PushMessage := ⟨⟨.empty, "e30=", "7", ""⟩, "s"⟩
  have accepted : decode body = .ok push := by decide +kernel
  have members : MessageMembers body [] after ([data] ++ ("message_id", value) :: []) :=
    ⟨Text.Utf8.encode "\x7b\"data\":\"e30=\",\"message_id\":\"7\"\x7d", by decide +kernel,
      by decide +kernel⟩
  have extendedMembers
      : MessageMembers extended [] after
          ([data] ++ ("message_id", value) :: ("messageId", value) :: []) :=
    ⟨Text.Utf8.encode "\x7b\"data\":\"e30=\",\"message_id\":\"7\",\"messageId\":\"7\"\x7d",
      by decide +kernel, by decide +kernel⟩
  have refused : decode extended = .error (.document (.duplicateField "message_id")) := by
    decide +kernel
  have kept := keep body extended value push [] after [data] [] accepted members extendedMembers
  rw [refused] at kept
  cases kept

end PushMessage

end LogIntake
