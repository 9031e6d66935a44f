import LogIntake.Proofs.Json.ObjectMembers
import LogIntake.Proofs.Json.Records

/-! Records from the members that an object is written with. Reading a record off the bytes amounts
to storing its members in turn, each value read as a document of its own, so the outcome depends on
the names and on the texts of the values only.
-/

namespace LogIntake.Json

variable {σ α : Type}

/-- A faithful reader reads a value inside a document exactly as a document of its own. -/
theorem Faithful.read_eq_ok_iff {read : Reader α} (faithful : Faithful False .value read)
    {text behind rest : List UInt8} {value : α} (spans : Spans .value (text ++ behind) behind)
    : read (text ++ behind) = .ok (value, rest)
      ↔ rest = behind ∧ readDocument read text = .ok value := by
  constructor
  · intro done
    obtain rfl := (faithful.spans done).unique spans
    obtain ⟨taken, split, _, again⟩ := faithful.takes _ _ _ done
    obtain rfl := List.append_cancel_right split
    have alone : read text = .ok (value, []) := by simpa using again [] False.elim
    exact ⟨rfl, readDocument_eq_ok_iff.mpr ⟨[], alone, rfl⟩⟩
  · rintro ⟨rfl, done⟩
    obtain ⟨left, valueRead, _⟩ := readDocument_eq_ok_iff.mp done
    obtain ⟨taken, rfl, _, again⟩ := faithful.takes _ _ _ valueRead
    have within : read (taken ++ (left ++ rest)) = .ok (value, left ++ rest) :=
      again (left ++ rest) False.elim
    have reaches : left ++ rest = rest := by
      rw [List.append_assoc] at spans
      exact (faithful.spans within).unique spans
    rw [List.append_assoc, within, reaches]

/-- A document that is changed after reading is read as before. -/
theorem readDocument_map (read : Reader α) (change : α → σ) (bytes : List UInt8)
    : readDocument (read.map change) bytes = (readDocument read bytes).map change := by
  simp only [readDocument, Reader.map]
  cases read bytes with
  | error e => rfl
  | ok result =>
      change (if (skipBlanks result.2).isEmpty then _ else _)
        = Except.map _ (if (skipBlanks result.2).isEmpty then _ else _)
      split_ifs <;> rfl

theorem readDocument_map_eq_ok_iff {read : Reader α} {change : α → σ} {bytes : List UInt8}
    {changed : σ}
    : readDocument (read.map change) bytes = .ok changed
      ↔ ∃ value, readDocument read bytes = .ok value ∧ change value = changed := by
  rw [readDocument_map]
  cases readDocument read bytes <;> simp [Except.map]

theorem readDocument_eq_error {read : Reader α} {bytes : List UInt8} {fault : DecodeError}
    (failed : read bytes = .error fault)
    : readDocument read bytes = .error fault := by
  rw [readDocument, failed]
  rfl

/-- Where every step takes a member exactly as it is stored, reading members off the bytes is
storing them as they are written, by induction on how they are written.
-/
theorem foldMembers_eq_ok_iff_of_stored (step : σ → String → Reader σ)
    (store : σ → WrittenMember → Except DecodeError σ)
    (stores
      : ∀ {state next : σ} {name : String} {colon text behind rest : List UInt8},
          passColon colon = .ok (text ++ behind)
          → Spans .value (text ++ behind) behind
          → (step state name colon = .ok (next, rest)
              ↔ rest = behind ∧ store state (name, text) = .ok next))
    {bound : Nat} {first : Bool} {bytes rest after : List UInt8} {members : List WrittenMember}
    (written : Written bound first bytes members rest) {state final : σ}
    : foldMembers step bound first state bytes = .ok (final, after)
      ↔ after = rest ∧ members.foldlM store state = .ok final := by
  induction written generalizing state with
  | ended ends =>
      rw [foldMembers_succ, formal_eq_ok_iff.mpr ends, List.foldlM_nil]
      constructor
      · intro done
        cases done
        exact ⟨rfl, rfl⟩
      · rintro ⟨rfl, done⟩
        cases done
        rfl
  | member named passed value _ ih =>
      rw [foldMembers_succ, formal_eq_ok_iff.mpr named, List.foldlM_cons]
      change (step state _ _ >>= _) = _ ↔ _
      rw [bind_eq_ok_iff, bind_eq_ok_iff]
      constructor
      · rintro ⟨⟨next, behind⟩, stepped, done⟩
        obtain ⟨rfl, stored⟩ := (stores passed value).mp stepped
        obtain ⟨rfl, remaining⟩ := ih.mp done
        exact ⟨rfl, next, stored, remaining⟩
      · rintro ⟨rfl, next, stored, remaining⟩
        refine ⟨(next, _), ?_, ih.mpr ⟨rfl, remaining⟩⟩
        exact (stores passed value).mpr ⟨rfl, stored⟩

namespace RecordKind

variable {kind : RecordKind σ α} {draft next final : σ} {field : RecordField σ} {name : String}

/-- The field that a member of the name belongs to. -/
def field? (kind : RecordKind σ α) (name : String) : Option (RecordField σ) :=
  kind.fields.find? fun field => field.isNamed name

theorem mem_of_field? (found : kind.field? name = some field) : field ∈ kind.fields :=
  List.mem_of_find?_eq_some found

/-- Stores a member in a draft. -/
def storeMember (kind : RecordKind σ α) (draft : σ) (member : WrittenMember)
    : Except DecodeError σ :=
  match kind.field? member.1 with
  | none => .ok draft
  | some field =>
      if field.isSet draft then .error (.duplicateField field.name)
      else readDocument (field.read draft) member.2

/-- Stores members from left to right. -/
def store (kind : RecordKind σ α) (draft : σ) (members : List WrittenMember)
    : Except DecodeError σ :=
  members.foldlM kind.storeMember draft

theorem store_nil_eq_ok_iff : kind.store draft [] = .ok final ↔ draft = final := by
  simp [store, pure, Except.pure]

theorem store_cons_eq_ok_iff {member : WrittenMember} {members : List WrittenMember}
    : kind.store draft (member :: members) = .ok final
      ↔ ∃ next, kind.storeMember draft member = .ok next ∧ kind.store next members = .ok final := by
  rw [store, List.foldlM_cons, bind_eq_ok_iff]
  rfl

theorem store_append_eq_ok_iff {first second : List WrittenMember}
    : kind.store draft (first ++ second) = .ok final
      ↔ ∃ next, kind.store draft first = .ok next ∧ kind.store next second = .ok final := by
  rw [store, List.foldlM_append, bind_eq_ok_iff]
  rfl

-----------------------------------------------------------------------------------------
-- Reading is storing
-----------------------------------------------------------------------------------------

theorem readMember_unknown (unknown : kind.field? name = none) (draft : σ)
    : kind.readMember draft name = fun bytes => do
        let ((), bytes) ← memberValue skipValue bytes
        return (draft, bytes) := by
  unfold readMember
  rw [← field?, unknown]

theorem readMember_repeated (found : kind.field? name = some field)
    (isSet : field.isSet draft = true) (bytes : List UInt8)
    : kind.readMember draft name bytes = .error (.duplicateField field.name) := by
  unfold readMember
  rw [← field?, found]
  dsimp only
  rw [if_pos isSet]

theorem readMember_known (found : kind.field? name = some field)
    (fresh : ¬ field.isSet draft = true)
    : kind.readMember draft name = memberValue (field.read draft) := by
  unfold readMember
  rw [← field?, found]
  exact if_neg fresh

/-- Reading a member off the bytes is storing it as it is written. -/
theorem readMember_eq_ok_iff (faithful : kind.FieldsFaithful)
    {colon text behind rest : List UInt8} (passed : passColon colon = .ok (text ++ behind))
    (spans : Spans .value (text ++ behind) behind)
    : kind.readMember draft name colon = .ok (next, rest)
      ↔ rest = behind ∧ kind.storeMember draft (name, text) = .ok next := by
  have memberAt {β : Type} {read : Reader β} {value : β} {rest : List UInt8}
      : memberValue read colon = .ok (value, rest) ↔ read (text ++ behind) = .ok (value, rest) := by
    rw [memberValue_eq_ok_iff, passed]
    simp
  cases found : kind.field? name with
  | none =>
      rw [readMember_unknown found, storeMember, found, bind_eq_ok_iff]
      constructor
      · rintro ⟨⟨_, after⟩, skipped, returned⟩
        cases returned
        exact ⟨(skipValue_eq_ok_iff.mp (memberAt.mp skipped)).unique spans, rfl⟩
      · rintro ⟨rfl, stored⟩
        cases stored
        exact ⟨((), rest), memberAt.mpr (skipValue_eq_ok_iff.mpr spans), rfl⟩
  | some field =>
      rw [storeMember, found]
      dsimp only
      by_cases isSet : field.isSet draft = true
      · rw [readMember_repeated found isSet, if_pos isSet]
        exact ⟨nofun, nofun⟩
      · rw [readMember_known found isSet, if_neg isSet, memberAt]
        exact (faithful field (mem_of_field? found) draft).read_eq_ok_iff spans

/-- Reading members off the bytes is storing them as they are written. -/
theorem foldMembers_eq_ok_iff (faithful : kind.FieldsFaithful) {bound : Nat} {first : Bool}
    {bytes rest after : List UInt8} {members : List WrittenMember}
    (written : Written bound first bytes members rest)
    : foldMembers kind.readMember bound first draft bytes = .ok (final, after)
      ↔ after = rest ∧ kind.store draft members = .ok final :=
  foldMembers_eq_ok_iff_of_stored kind.readMember kind.storeMember
    (readMember_eq_ok_iff faithful) written

/-- Where a member is an error behind members that can be stored, it is the error of the record. The
induction is on the members before it.
-/
theorem foldMembers_eq_error (faithful : kind.FieldsFaithful) {bound : Nat} {first : Bool}
    {bytes rest text : List UInt8} {before after : List WrittenMember} {fault : DecodeError}
    (written : Written bound first bytes (before ++ (name, text) :: after) rest)
    (stored : kind.store draft before = .ok next)
    (fails
      : ∀ colon behind,
          passColon colon = .ok (text ++ behind)
          → kind.readMember next name colon = .error fault)
    : foldMembers kind.readMember bound first draft bytes = .error fault := by
  induction before generalizing bound first bytes draft with
  | nil =>
      cases store_nil_eq_ok_iff.mp stored
      cases written with
      | member named passed value remaining =>
          rw [foldMembers_succ, formal_eq_ok_iff.mpr named]
          change (kind.readMember next _ _ >>= _) = _
          rw [fails _ _ passed]
          rfl
  | cons member before ih =>
      obtain ⟨between, memberStored, remainingStored⟩ := store_cons_eq_ok_iff.mp stored
      cases written with
      | member named passed value remaining =>
          have stepped := (readMember_eq_ok_iff faithful passed value).mpr ⟨rfl, memberStored⟩
          rw [foldMembers_succ, formal_eq_ok_iff.mpr named]
          change (kind.readMember draft _ _ >>= _) = _
          rw [stepped]
          exact ih remaining remainingStored

-----------------------------------------------------------------------------------------
-- Whole records
-----------------------------------------------------------------------------------------

/-- A document that reads as a record and is an object has members. -/
theorem exists_objectMembers (faithful : kind.FieldsFaithful) {bytes inner : List UInt8}
    {value : α} (done : readDocument kind.read bytes = .ok value)
    (skipped : skipBlanks bytes = byteOf '\x7b' :: inner)
    : ∃ members, objectMembers? bytes = some members := by
  obtain ⟨rest, done, blank⟩ := Json.readDocument_eq_ok_iff.mp done
  obtain ⟨bracket, start, draft, opens, draftRead, _⟩ := read_eq_ok_iff.mp done
  rw [skipped] at opens
  obtain ⟨opening, rfl⟩ := List.cons.inj opens
  cases bracket with
  | list => exact absurd opening (by decide)
  | object =>
      obtain ⟨members, written⟩ := exists_written (readMember_faithful faithful) draftRead
      refine ⟨members, objectMembers?_eq_some_iff.mpr ⟨rest, ?_, blank⟩⟩
      exact readWrittenMembers_eq_ok_iff.mpr ⟨inner, skipped, written⟩

/-- A record with given members is read exactly as they are stored. -/
theorem readDocument_eq_ok_iff (faithful : kind.FieldsFaithful) {bytes : List UInt8}
    {members : List WrittenMember} (written : objectMembers? bytes = some members) {value : α}
    : readDocument kind.read bytes = .ok value
      ↔ ∃ draft, kind.store kind.start members = .ok draft ∧ kind.finish draft = .ok value := by
  obtain ⟨rest, membersRead, blank⟩ := objectMembers?_eq_some_iff.mp written
  obtain ⟨inner, skipped, written⟩ := readWrittenMembers_eq_ok_iff.mp membersRead
  rw [Json.readDocument_eq_ok_iff]
  constructor
  · rintro ⟨after, done, _⟩
    obtain ⟨bracket, start, draft, opens, draftRead, finished⟩ := read_eq_ok_iff.mp done
    rw [skipped] at opens
    obtain ⟨opening, rfl⟩ := List.cons.inj opens
    cases bracket with
    | list => exact absurd opening (by decide)
    | object =>
        obtain ⟨_, stored⟩ := (foldMembers_eq_ok_iff faithful written).mp draftRead
        exact ⟨draft, stored, finished⟩
  · rintro ⟨draft, stored, finished⟩
    refine ⟨rest, read_eq_ok_iff.mpr ⟨.object, inner, draft, skipped, ?_, finished⟩, blank⟩
    exact (foldMembers_eq_ok_iff faithful written).mpr ⟨rfl, stored⟩

/-- A record fails with the error of a member behind members that can be stored. -/
theorem read_eq_error (faithful : kind.FieldsFaithful) {bytes rest text : List UInt8}
    {before after : List WrittenMember} {fault : DecodeError}
    (written : readWrittenMembers bytes = .ok (before ++ (name, text) :: after, rest))
    (stored : kind.store kind.start before = .ok next)
    (fails
      : ∀ colon behind,
          passColon colon = .ok (text ++ behind)
          → kind.readMember next name colon = .error fault)
    : kind.read bytes = .error fault := by
  obtain ⟨inner, skipped, written⟩ := readWrittenMembers_eq_ok_iff.mp written
  have failed := foldMembers_eq_error faithful written stored fails
  unfold read readRecord
  rw [skipped]
  change (readMembers kind.start kind.readMember inner >>= _) = _
  rw [readMembers, failed]
  rfl

end RecordKind

end LogIntake.Json
