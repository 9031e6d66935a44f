import LogIntake.Formatter
import LogIntake.Proofs.Entry.Members
import LogIntake.Text.Utf8

/-! Decoding a document against the grammar of entries. The decoder accepts what the grammar
describes, and the list form of the resource besides, which a document has no reason to use.
-/

namespace LogIntake.Entry

/-- The members say the fields of the entry, the resource in the given form. -/
structure MembersDescribe (resourceForm : Option Json → Resource → Prop)
    (members : List (String × Json)) (entry : Entry)
    : Prop where
  logName : TextMember (members.lookup "logName") entry.logName
  resource : resourceForm (members.lookup "resource") entry.resource
  timestamp : TextMember (members.lookup "timestamp") entry.timestamp
  receiveTimestamp : TextMember (members.lookup "receiveTimestamp") entry.receiveTimestamp
  severity : TextMember (members.lookup "severity") entry.severity
  labels : TextsMember (members.lookup "labels") entry.labels
  textPayload : TextMember (members.lookup "textPayload") entry.textPayload

/-- The value is null and the entry is empty, or the value is an object that describes it. -/
inductive Describes : Json → Entry → Prop
  | null : Describes .null empty
  | obj {members entry} (fields : MembersDescribe ResourceMember members entry)
    : Describes (.obj members) entry

/-- The value describes the entry but for its resource, which is a list of fields. -/
inductive DescribesListed : Json → Entry → Prop
  | obj {members entry} (fields : MembersDescribe ListedResource members entry)
    : DescribesListed (.obj members) entry

theorem ResourceMember.not_sequence {member? : Option Json} {resource : Resource}
    (named : ResourceMember member? resource)
    : member?.map Json.found ≠ some .sequence := by
  intro sequence
  cases named <;> cases sequence

/-- The resource of a described entry is no list. -/
theorem Describes.resource_not_sequence {value : Json} {entry : Entry}
    (described : Describes value entry)
    : (value.member? "resource").map Json.found ≠ some .sequence := by
  cases described with
  | null => exact nofun
  | obj fields => exact fields.resource.not_sequence

theorem ListedResource.sequence {member? : Option Json} {resource : Resource}
    (listed : ListedResource member? resource)
    : member?.map Json.found = some .sequence := by
  cases listed
  rfl

/-- The resource of an entry that is described but for it is a list. -/
theorem DescribesListed.resource_sequence {value : Json} {entry : Entry}
    (listed : DescribesListed value entry)
    : (value.member? "resource").map Json.found = some .sequence := by
  cases listed with
  | obj fields => exact fields.resource.sequence

/-- The fields of an entry in ascending order of their names. -/
def sortedFields : List (Field Json Json.DecodeError Entry) :=
  [⟨"labels", fun entry value => do return { entry with labels := ← decodeTexts value }⟩,
   ⟨"logName", fun entry value => do return { entry with logName := ← decodeText value }⟩,
   ⟨"receiveTimestamp", fun entry value => do
      return { entry with receiveTimestamp := ← decodeText value }⟩,
   ⟨"resource", fun entry value => do
      return { entry with resource := ← decodeResource value }⟩,
   ⟨"severity", fun entry value => do return { entry with severity := ← decodeText value }⟩,
   ⟨"textPayload", fun entry value => do
      return { entry with textPayload := ← decodeText value }⟩,
   ⟨"timestamp", fun entry value => do
      return { entry with timestamp := ← decodeText value }⟩]

theorem sortedFields_ascending
    : sortedFields.Pairwise fun left right => left.name < right.name := by
  rw [← List.pairwise_map]
  decide

theorem find?_fields (name : String)
    : fields.find? (fun field => field.name = name)
      = sortedFields.find? (fun field => field.name = name) := by
  by_cases known : name ∈ sortedFields.map Field.name
  · simp only [sortedFields, List.map_cons, List.map_nil, List.mem_cons, List.not_mem_nil,
      or_false] at known
    rcases known with rfl | rfl | rfl | rfl | rfl | rfl | rfl <;> rfl
  · simp only [sortedFields, List.map_cons, List.map_nil, List.mem_cons, List.not_mem_nil,
      or_false, not_or] at known
    rw [List.find?_eq_none.mpr, List.find?_eq_none.mpr]
    · simp [sortedFields, eq_comm, known]
    · simp [fields, eq_comm, known]

/-- The members of an object decode to the entry that they describe, in either form of the
resource.
-/
theorem storeMembers_eq_ok_iff {members : List (String × Json)}
    (ordered : Json.Ordered (.obj members)) {entry : Entry}
    : Json.dataFormat.storeMembers fields [] empty members = .ok entry
      ↔ MembersDescribe ResourceMember members entry
        ∨ MembersDescribe ListedResource members entry := by
  rw [DataFormat.storeMembers_eq_storeFields _ sortedFields_ascending find?_fields
    ordered.ascending_members]
  unfold sortedFields empty
  simp only [DataFormat.storeFields_nil_eq_ok_iff,
    DataFormat.storeFields_cons_eq_ok_iff
      (fun (entry : Entry) labels => { entry with labels }) .empty,
    DataFormat.storeFields_cons_eq_ok_iff
      (fun (entry : Entry) logName => { entry with logName }) "",
    DataFormat.storeFields_cons_eq_ok_iff
      (fun (entry : Entry) receiveTimestamp => { entry with receiveTimestamp }) "",
    DataFormat.storeFields_cons_eq_ok_iff
      (fun (entry : Entry) resource => { entry with resource }) .empty,
    DataFormat.storeFields_cons_eq_ok_iff
      (fun (entry : Entry) severity => { entry with severity }) "",
    DataFormat.storeFields_cons_eq_ok_iff
      (fun (entry : Entry) textPayload => { entry with textPayload }) "",
    DataFormat.storeFields_cons_eq_ok_iff
      (fun (entry : Entry) timestamp => { entry with timestamp }) "",
    decodeText_eq_ok_iff, decodeTexts_eq_ok_iff (orderedMember_lookup ordered _),
    decodeResource_eq_ok_iff (orderedMember_lookup ordered _)]
  constructor
  · rintro ⟨_, labels, _, logName, _, receiveTimestamp, _, resource, _, severity, _, textPayload,
      _, timestamp, rfl⟩
    rcases resource with named | listed
    · exact .inl
        ⟨logName, named, timestamp, receiveTimestamp, severity, labels, textPayload⟩
    · exact .inr
        ⟨logName, listed, timestamp, receiveTimestamp, severity, labels, textPayload⟩
  · rintro (fields | fields)
    · exact ⟨_, fields.labels, _, fields.logName, _, fields.receiveTimestamp, _,
        .inl fields.resource, _, fields.severity, _, fields.textPayload, _, fields.timestamp, rfl⟩
    · exact ⟨_, fields.labels, _, fields.logName, _, fields.receiveTimestamp, _,
        .inr fields.resource, _, fields.severity, _, fields.textPayload, _, fields.timestamp, rfl⟩

/-- A value that was read decodes to an entry exactly if it describes the entry in either
form.
-/
theorem ofValue_eq_ok_iff {value : Json} (ordered : Json.Ordered value) {entry : Entry}
    : ofValue value = .ok entry ↔ Describes value entry ∨ DescribesListed value entry := by
  constructor
  · intro decoded
    cases value with
    | null =>
        cases decoded
        exact .inl .null
    | obj members =>
        have stored := mapError_eq_ok_iff.mp decoded
        rcases (storeMembers_eq_ok_iff ordered).mp stored with named | listed
        · exact .inl (.obj named)
        · exact .inr (.obj listed)
    | bool | num | str | arr => cases decoded
  · rintro (described | described)
    · cases described with
      | null => rfl
      | obj fields =>
          exact mapError_eq_ok_iff.mpr ((storeMembers_eq_ok_iff ordered).mpr (.inl fields))
    · cases described with
      | obj fields =>
          exact mapError_eq_ok_iff.mpr ((storeMembers_eq_ok_iff ordered).mpr (.inr fields))

/-- A document decodes to an entry exactly if its value describes the entry in either form. -/
theorem decode_eq_ok_iff {raw : List UInt8} {entry : Entry}
    : decode raw = .ok entry
      ↔ ∃ value,
          Json.parse raw = .ok value ∧ (Describes value entry ∨ DescribesListed value entry) := by
  rw [decode, bind_eq_ok_iff]
  simp only [mapError_eq_ok_iff]
  refine exists_congr fun value => and_congr_right fun parsed => ?_
  exact ofValue_eq_ok_iff (Json.parse_ordered parsed)

/-- The decoder accepts exactly the two forms and fails with a decoding error on everything
else, so it accepts what the grammar describes, and only that, for exactly those documents that
do not list the fields of their resource. Witness: a listed form that is accepted is no described
one, since no resource is both an object and a list.
-/
theorem decode_iff_described_unless_listed (raw : List UInt8)
    : (∀ entry,
        decode raw = .ok entry
        ↔ ∃ value,
            Json.parse raw = .ok value ∧ (Describes value entry ∨ DescribesListed value entry))
      ∧ ((∃ fault, (decode raw).mapError FormatError.decode = .error (.decode fault))
        ↔ ¬ ∃ value entry,
              Json.parse raw = .ok value ∧ (Describes value entry ∨ DescribesListed value entry))
      ∧ ((∀ entry,
          decode raw = .ok entry ↔ ∃ value, Json.parse raw = .ok value ∧ Describes value entry)
        ↔ ¬ ∃ value entry, Json.parse raw = .ok value ∧ DescribesListed value entry) := by
  refine ⟨fun entry => decode_eq_ok_iff, ?_, ?_⟩
  · cases decoded : decode raw with
    | error fault =>
        refine ⟨?_, fun _ => ⟨fault, rfl⟩⟩
        rintro - ⟨value, entry, accepted⟩
        have success := decode_eq_ok_iff.mpr ⟨value, accepted⟩
        rw [decoded] at success
        cases success
    | ok entry =>
        obtain ⟨value, accepted⟩ := decode_eq_ok_iff.mp decoded
        constructor
        · rintro ⟨_, failed⟩
          cases failed
        · intro undescribed
          exact absurd ⟨value, entry, accepted⟩ undescribed
  · constructor
    · rintro grammatical ⟨value, entry, parsed, listed⟩
      have decoded := decode_eq_ok_iff.mpr ⟨value, parsed, .inr listed⟩
      obtain ⟨other, parsedOther, described⟩ := (grammatical entry).mp decoded
      cases parsed.symm.trans parsedOther
      exact described.resource_not_sequence listed.resource_sequence
    · intro unlisted entry
      rw [decode_eq_ok_iff]
      refine exists_congr fun value => and_congr_right fun parsed => ?_
      exact or_iff_left fun listed => unlisted ⟨value, entry, parsed, listed⟩

/-- A resource that is a list with its kind is accepted, though no entry is described. -/
theorem decode_accepts_listed_resource
    : let raw := Text.Utf8.encode "\x7b\"resource\":[\"t\"]\x7d"
      ¬ ∀ entry,
          decode raw = .ok entry
          ↔ ∃ value, Json.parse raw = .ok value ∧ Describes value entry := by
  intro raw grammatical
  have decoded : decode raw = .ok { empty with resource := ⟨"t", .empty⟩ } := by decide +kernel
  have isList
      : (Json.parse raw).toOption.map (fun value => (value.member? "resource").map Json.found)
        = some (some .sequence) := by
    decide +kernel
  obtain ⟨value, parsed, described⟩ := (grammatical _).mp decoded
  rw [parsed, Except.toOption, Option.map_some, Option.some.injEq] at isList
  exact described.resource_not_sequence isList

end LogIntake.Entry
