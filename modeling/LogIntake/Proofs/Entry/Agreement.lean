import LogIntake.Proofs.Entry.Decoding
import LogIntake.Proofs.Json.DocumentOrder
import LogIntake.Proofs.Json.Sameness

/-! Documents that agree in the fields of an entry. The fields are stored in an order of their own,
each from the member of its name, so nothing else about a document comes into the entry or into the
error.
-/

namespace LogIntake

variable {ν ε α : Type}

/-- What the member of a field does to a record, if there is one. -/
def Field.storeMember (field : Field ν ε α) (record : α) : Option ν → Except ε α
  | none => .ok record
  | some value => field.store record value

theorem DataFormat.storeFields_cons (member? : String → Option ν) (field : Field ν ε α)
    (fields : List (Field ν ε α)) (record : α)
    : storeFields member? (field :: fields) record
      = field.storeMember record (member? field.name) >>= storeFields member? fields := by
  rw [storeFields]
  cases member? field.name <;> rfl

/-- Members that do the same to every record may stand for each other, by induction on the fields.
-/
theorem DataFormat.storeFields_congr_stored {left right : String → Option ν}
    {fields : List (Field ν ε α)}
    (agree
      : ∀ field ∈ fields,
          ∀ record,
            field.storeMember record (left field.name)
            = field.storeMember record (right field.name))
    (record : α)
    : storeFields left fields record = storeFields right fields record := by
  induction fields generalizing record with
  | nil => rfl
  | cons field fields ih =>
      obtain ⟨first, rest⟩ := List.forall_mem_cons.mp agree
      rw [storeFields_cons, storeFields_cons, first record, funext (ih rest)]

namespace Entry

open Json

/-- The members of two resources agree: they are the same, both are absent, or both are objects that
agree in what a resource is made from.
-/
inductive ResourcesAgree : Option Json → Option Json → Prop
  | same (member? : Option Json) : ResourcesAgree member? member?
  | objects {members others : List (String × Json)}
    (kind : members.lookup "type" = others.lookup "type")
    (labels : members.lookup "labels" = others.lookup "labels")
    : ResourcesAgree (some (.obj members)) (some (.obj others))

/-- The members of two objects agree in what an entry is made from. -/
structure Agree (left right : String → Option Json) : Prop where
  each
    : ∀ name ∈
        ["logName", "timestamp", "receiveTimestamp", "severity", "labels", "textPayload"],
        left name = right name
  resource : ResourcesAgree (left "resource") (right "resource")

/-- Objects that agree in what a resource is made from decode to the same resource or error. -/
theorem decodeResource_obj_congr {members others : List (String × Json)}
    (ordered : Ordered (.obj members)) (otherOrdered : Ordered (.obj others))
    (kind : members.lookup "type" = others.lookup "type")
    (labels : members.lookup "labels" = others.lookup "labels")
    : decodeResource (.obj members) = decodeResource (.obj others) := by
  have stored {members : List (String × Json)} (ordered : Ordered (.obj members))
      : decodeResource (.obj members)
        = DataFormat.storeFields (members.lookup ·) sortedResourceFields Resource.empty :=
    DataFormat.storeMembers_eq_storeFields _ sortedResourceFields_ascending find?_resourceFields
      ordered.ascending_members Resource.empty
  rw [stored ordered, stored otherOrdered]
  refine DataFormat.storeFields_congr ?_ Resource.empty
  simp only [sortedResourceFields, List.forall_mem_cons]
  exact ⟨labels, kind, List.forall_mem_nil _⟩

theorem ResourcesAgree.decodeResource_congr {left right : Option Json}
    (agree : ResourcesAgree left right) (ordered : OrderedMember left)
    (otherOrdered : OrderedMember right)
    : left.map decodeResource = right.map decodeResource := by
  cases agree with
  | same => rfl
  | objects kind labels =>
      have same := decodeResource_obj_congr (ordered _ rfl) (otherOrdered _ rfl) kind labels
      rw [Option.map_some, Option.map_some, same]

/-- Objects that agree are stored as the same entry, or with the same error. -/
theorem Agree.storeMembers_congr {members others : List (String × Json)}
    (agree : Agree (members.lookup ·) (others.lookup ·)) (ordered : Ordered (.obj members))
    (otherOrdered : Ordered (.obj others))
    : dataFormat.storeMembers fields [] empty members
      = dataFormat.storeMembers fields [] empty others := by
  have sorted {members : List (String × Json)} (ordered : Ordered (.obj members))
      : dataFormat.storeMembers fields [] empty members
        = DataFormat.storeFields (members.lookup ·) sortedFields empty :=
    DataFormat.storeMembers_eq_storeFields _ sortedFields_ascending find?_fields
      ordered.ascending_members empty
  have same := agree.each
  simp only [List.forall_mem_cons] at same
  obtain ⟨logName, timestamp, receiveTimestamp, severity, labels, textPayload, _⟩ := same
  have resource := agree.resource.decodeResource_congr
    (orderedMember_lookup ordered "resource") (orderedMember_lookup otherOrdered "resource")
  rw [sorted ordered, sorted otherOrdered]
  refine DataFormat.storeFields_congr_stored ?_ empty
  simp only [sortedFields, List.forall_mem_cons]
  refine ⟨fun _ => by rw [labels], fun _ => by rw [logName], fun _ => by rw [receiveTimestamp],
    fun record => ?_, fun _ => by rw [severity], fun _ => by rw [textPayload],
    fun _ => by rw [timestamp], List.forall_mem_nil _⟩
  generalize members.lookup "resource" = left at resource
  generalize others.lookup "resource" = right at resource
  cases left with
  | none =>
      obtain rfl := Option.map_eq_none_iff.mp resource.symm
      rfl
  | some value =>
      obtain ⟨other, rfl, same⟩ := Option.map_eq_some_iff.mp resource.symm
      simp only [Field.storeMember, same]

/-- Documents whose values are objects that agree decode to the same entry or error. -/
theorem decode_congr {raw other : List UInt8} {members others : List (String × Json)}
    (parsed : parse raw = .ok (.obj members)) (otherParsed : parse other = .ok (.obj others))
    (agree : Agree (members.lookup ·) (others.lookup ·))
    : decode raw = decode other := by
  have stored := agree.storeMembers_congr (parse_ordered parsed) (parse_ordered otherParsed)
  rw [decode, decode, parsed, otherParsed]
  exact congrArg (Except.mapError Fault.document) stored

/-- Two documents that are objects decode to the same entry or to the same error if their values
agree in the fields of an entry and of its resource. An object is read at any depth from its members
in the order of the document, and of several members of one name it has the last. So it is enough
that the last members agree, whatever the order, the blanks, the earlier members of the same names
and the members of other names are.
-/
theorem decode_agrees (raw other : List UInt8)
    : (∀ members others,
        parse raw = .ok (.obj members)
        → parse other = .ok (.obj others)
        → Agree (members.lookup ·) (others.lookup ·)
        → decode raw = decode other)
      ∧ (∀ depth bytes rest members,
          readValue (depth + 2) bytes = .ok (.obj members, rest)
          → ∃ entries,
              readEntries (depth + 1) bytes = .ok (entries, rest)
              ∧ ∀ name, members.lookup name = entries.reverse.lookup name)
      ∧ ∀ entries others,
          documentEntries raw = .ok entries
          → documentEntries other = .ok others
          → Agree (entries.reverse.lookup ·) (others.reverse.lookup ·)
          → decode raw = decode other := by
  refine ⟨fun members others => decode_congr, fun depth bytes rest members read => ?_,
    fun entries others read otherRead agree => ?_⟩
  · obtain ⟨entries, entriesRead, rfl⟩ := readValue_eq_obj_iff.mp read
    exact ⟨entries, entriesRead, lookup_membersOf entries⟩
  · refine decode_congr (parse_eq_obj_iff.mpr ⟨entries, read, rfl⟩)
      (parse_eq_obj_iff.mpr ⟨others, otherRead, rfl⟩) ?_
    simp only [lookup_membersOf]
    exact agree

/-- An entry in its plain form, and with blanks, in another order, and with members that are unknown
or overruled, in the resource as well.
-/
theorem decode_agrees_shuffled
    : decode
          (Text.Utf8.encode
            ("\x7b \"resource\": \x7b\"zone\":[null], \"type\":true, \"type\":\"\\u0074\"\x7d,"
              ++ "\"logName\":[],\"jsonPayload\":\x7b\"logName\":null\x7d,\"logName\":\"l\"\x7d\n"))
        = decode
            (Text.Utf8.encode "\x7b\"logName\":\"l\",\"resource\":\x7b\"type\":\"t\"\x7d\x7d")
      ∧ decode
            (Text.Utf8.encode "\x7b\"logName\":\"l\",\"resource\":\x7b\"type\":\"t\"\x7d\x7d")
        = .ok { empty with logName := "l", resource := ⟨"t", .empty⟩ } := by
  refine ⟨?_, by decide +kernel⟩
  refine (decode_agrees _ _).2.2
    [("resource", .obj [("type", .str "t"), ("zone", .arr [.null])]), ("logName", .arr []),
     ("jsonPayload", .obj [("logName", .null)]), ("logName", .str "l")]
    [("logName", .str "l"), ("resource", .obj [("type", .str "t")])] (by decide +kernel)
    (by decide +kernel) ⟨by decide, .objects (by decide) (by decide)⟩

end Entry

end LogIntake
