import LogIntake.Proofs.Json.Storing

/-! The order of members. If the fields of a record keep apart in the draft, the members of an
object may be stored in any order, and no field is stored twice.
-/

namespace LogIntake.Json

variable {σ α : Type}

/-- The fields of the kind keep apart: reading one makes it set, leaves the others as they are, and
does not depend on whether another one was read before.
-/
structure RecordKind.Separate (kind : RecordKind σ α) : Prop where
  sets
    : ∀ field ∈ kind.fields,
        ∀ {draft text next},
          readDocument (field.read draft) text = .ok next
          → ∀ other ∈ kind.fields,
              other.isSet next = (decide (other.name = field.name) || other.isSet draft)
  commute
    : ∀ field ∈ kind.fields,
        ∀ other ∈ kind.fields,
          other.name ≠ field.name
          → ∀ {draft text next otherText final},
              readDocument (field.read draft) text = .ok next
              → readDocument (other.read next) otherText = .ok final
              → ∃ between,
                  readDocument (other.read draft) otherText = .ok between
                  ∧ readDocument (field.read between) text = .ok final

/-- A field that puts the value it reads into a place of its own. -/
structure FieldPlace (σ : Type) where
  Value : Type
  name : String
  aliases : List String
  isSet : σ → Bool
  read : Reader Value
  put : σ → Value → σ

def FieldPlace.field (place : FieldPlace σ) : RecordField σ where
  name := place.name
  aliases := place.aliases
  isSet := place.isSet
  read draft := place.read.map (place.put draft)

namespace RecordKind

variable {kind : RecordKind σ α} {draft next final : σ} {field : RecordField σ} {name : String}

/-- A member is stored if it is unknown, or if its field is fresh and reads the value. -/
theorem storeMember_eq_ok_iff {member : WrittenMember}
    : kind.storeMember draft member = .ok next
      ↔ (kind.field? member.1 = none ∧ draft = next)
        ∨ ∃ field,
            kind.field? member.1 = some field
            ∧ field.isSet draft = false
            ∧ readDocument (field.read draft) member.2 = .ok next := by
  unfold storeMember
  cases kind.field? member.1 with
  | none => simp
  | some field =>
      cases isSet : field.isSet draft with
      | true => simp [isSet]
      | false => simp [isSet]

/-- Two members may change places. -/
theorem storeMember_swap (separate : kind.Separate) {first second : WrittenMember}
    (firstStored : kind.storeMember draft first = .ok next)
    (secondStored : kind.storeMember next second = .ok final)
    : ∃ between,
        kind.storeMember draft second = .ok between
        ∧ kind.storeMember between first = .ok final := by
  rcases storeMember_eq_ok_iff.mp firstStored with
    ⟨unknown, rfl⟩ | ⟨field, found, fresh, read⟩
  · exact ⟨final, secondStored, storeMember_eq_ok_iff.mpr (.inl ⟨unknown, rfl⟩)⟩
  · rcases storeMember_eq_ok_iff.mp secondStored with
      ⟨unknown, rfl⟩ | ⟨other, otherFound, otherFresh, otherRead⟩
    · exact ⟨draft, storeMember_eq_ok_iff.mpr (.inl ⟨unknown, rfl⟩), firstStored⟩
    · have member := mem_of_field? found
      have otherMember := mem_of_field? otherFound
      rw [separate.sets field member read other otherMember, Bool.or_eq_false_iff,
        decide_eq_false_iff_not] at otherFresh
      obtain ⟨apart, otherFresh⟩ := otherFresh
      obtain ⟨between, otherFirst, fieldSecond⟩ :=
        separate.commute field member other otherMember apart read otherRead
      have stillFresh : field.isSet between = false := by
        rw [separate.sets other otherMember otherFirst field member, fresh,
          decide_eq_false (Ne.symm apart)]
        rfl
      exact ⟨between,
        storeMember_eq_ok_iff.mpr (.inr ⟨other, otherFound, otherFresh, otherFirst⟩),
        storeMember_eq_ok_iff.mpr (.inr ⟨field, found, stillFresh, fieldSecond⟩)⟩

/-- The fields keep apart if their places do. -/
theorem Separate.of_places {places : List (FieldPlace σ)}
    (fields : kind.fields = places.map FieldPlace.field)
    (sets
      : ∀ place ∈ places,
          ∀ other ∈ places,
            ∀ draft value,
              other.isSet (place.put draft value)
              = (decide (other.name = place.name) || other.isSet draft))
    (commute
      : ∀ place ∈ places,
          ∀ other ∈ places,
            other.name ≠ place.name
            → ∀ draft value otherValue,
                other.put (place.put draft value) otherValue
                = place.put (other.put draft otherValue) value)
    : kind.Separate where
  sets := by
    intro field member draft text next done other otherMember
    rw [fields] at member otherMember
    obtain ⟨place, placed, rfl⟩ := List.mem_map.mp member
    obtain ⟨otherPlace, otherPlaced, rfl⟩ := List.mem_map.mp otherMember
    obtain ⟨value, _, rfl⟩ := readDocument_map_eq_ok_iff.mp done
    exact sets place placed otherPlace otherPlaced draft value
  commute := by
    intro field member other otherMember apart draft text next otherText final done otherDone
    rw [fields] at member otherMember
    obtain ⟨place, placed, rfl⟩ := List.mem_map.mp member
    obtain ⟨otherPlace, otherPlaced, rfl⟩ := List.mem_map.mp otherMember
    obtain ⟨value, valueRead, rfl⟩ := readDocument_map_eq_ok_iff.mp done
    obtain ⟨otherValue, otherRead, rfl⟩ := readDocument_map_eq_ok_iff.mp otherDone
    refine ⟨otherPlace.put draft otherValue, ?_, ?_⟩
    · exact readDocument_map_eq_ok_iff.mpr ⟨otherValue, otherRead, rfl⟩
    · refine readDocument_map_eq_ok_iff.mpr ⟨value, valueRead, ?_⟩
      exact (commute place placed otherPlace otherPlaced apart draft value otherValue).symm

/-- The fields read their values in their whole extent if their places do. -/
theorem FieldsFaithful.of_places {places : List (FieldPlace σ)}
    (fields : kind.fields = places.map FieldPlace.field)
    (faithful : ∀ place ∈ places, Faithful False .value place.read)
    : kind.FieldsFaithful := by
  intro field member draft
  rw [fields] at member
  obtain ⟨place, placed, rfl⟩ := List.mem_map.mp member
  exact (faithful place placed).map (place.put draft)

/-- Members may be stored in any order, by induction on the exchanges. -/
theorem store_perm (separate : kind.Separate) {left right : List WrittenMember}
    (perm : left.Perm right) (stored : kind.store draft left = .ok final)
    : kind.store draft right = .ok final := by
  induction perm generalizing draft final with
  | nil => exact stored
  | cons member _ ih =>
      obtain ⟨next, memberStored, remaining⟩ := store_cons_eq_ok_iff.mp stored
      exact store_cons_eq_ok_iff.mpr ⟨next, memberStored, ih remaining⟩
  | swap first second members =>
      obtain ⟨_, firstStored, stored⟩ := store_cons_eq_ok_iff.mp stored
      obtain ⟨_, secondStored, remaining⟩ := store_cons_eq_ok_iff.mp stored
      obtain ⟨between, secondFirst, firstSecond⟩ :=
        storeMember_swap separate firstStored secondStored
      refine store_cons_eq_ok_iff.mpr ⟨between, secondFirst, ?_⟩
      exact store_cons_eq_ok_iff.mpr ⟨_, firstSecond, remaining⟩
  | trans _ _ firstHyp secondHyp => exact secondHyp (firstHyp stored)

/-- Members that belong to no field leave the draft as it is, by induction on them. -/
theorem store_unknown {members : List WrittenMember}
    (unknown : ∀ member ∈ members, kind.field? member.1 = none)
    : kind.store draft members = .ok draft := by
  induction members with
  | nil => rfl
  | cons member members ih =>
      obtain ⟨first, others⟩ := List.forall_mem_cons.mp unknown
      have kept : kind.storeMember draft member = .ok draft :=
        storeMember_eq_ok_iff.mpr (.inl ⟨first, rfl⟩)
      exact store_cons_eq_ok_iff.mpr ⟨draft, kept, ih others⟩

/-- The names that members are known by. -/
def memberNames (kind : RecordKind σ α) : List String :=
  kind.fields.flatMap fun field => field.name :: field.aliases

theorem field?_eq_none_iff : kind.field? name = none ↔ name ∉ kind.memberNames := by
  simp [field?, memberNames, RecordField.isNamed]

/-- The other members are these in any order, with any number of unknown ones between them. -/
def Rearranged (kind : RecordKind σ α) (members others : List WrittenMember) : Prop :=
  ∃ added, (∀ member ∈ added, member.1 ∉ kind.memberNames) ∧ others.Perm (members ++ added)

/-- Members may be stored in any order and with unknown ones between them. -/
theorem store_rearranged (separate : kind.Separate) {members others : List WrittenMember}
    (rearranged : kind.Rearranged members others) (stored : kind.store draft members = .ok final)
    : kind.store draft others = .ok final := by
  obtain ⟨added, unknown, perm⟩ := rearranged
  have addedStored : kind.store final added = .ok final :=
    store_unknown fun member among => field?_eq_none_iff.mpr (unknown member among)
  exact store_perm separate perm.symm (store_append_eq_ok_iff.mpr ⟨final, stored, addedStored⟩)

/-- A record is read the same with its members rearranged. -/
theorem readDocument_rearranged (faithful : kind.FieldsFaithful) (separate : kind.Separate)
    {bytes other : List UInt8} {members others : List WrittenMember} {result : α}
    (rearranged : kind.Rearranged members others) (written : objectMembers? bytes = some members)
    (writtenAgain : objectMembers? other = some others)
    (done : readDocument kind.read bytes = .ok result)
    : readDocument kind.read other = .ok result := by
  obtain ⟨draft, stored, finished⟩ := (readDocument_eq_ok_iff faithful written).mp done
  refine (readDocument_eq_ok_iff faithful writtenAgain).mpr ⟨draft, ?_, finished⟩
  exact store_rearranged separate rearranged stored

/-- A field is set once one of its members is stored, and it stays so, by induction on the members.
-/
theorem isSet_of_store (separate : kind.Separate) {members : List WrittenMember}
    (stored : kind.store draft members = .ok final) (known : field ∈ kind.fields)
    (set : field.isSet draft = true ∨ ∃ member ∈ members, kind.field? member.1 = some field)
    : field.isSet final = true := by
  induction members generalizing draft with
  | nil =>
      cases store_nil_eq_ok_iff.mp stored
      rcases set with set | ⟨_, impossible, _⟩
      · exact set
      · cases impossible
  | cons first members ih =>
      obtain ⟨next, firstStored, remaining⟩ := store_cons_eq_ok_iff.mp stored
      apply ih remaining
      rcases storeMember_eq_ok_iff.mp firstStored with ⟨unknown, rfl⟩ | ⟨other, found, _, read⟩
      · rcases set with set | ⟨member, inMembers, owned⟩
        · exact .inl set
        · rcases List.mem_cons.mp inMembers with rfl | later
          · rw [unknown] at owned
            cases owned
          · exact .inr ⟨member, later, owned⟩
      · have sets := separate.sets other (mem_of_field? found) read field known
        rcases set with set | ⟨member, inMembers, owned⟩
        · exact .inl (by rw [sets, set, Bool.or_true])
        · rcases List.mem_cons.mp inMembers with rfl | later
          · obtain rfl := Option.some.inj (found.symm.trans owned)
            exact .inl (by rw [sets, decide_eq_true rfl, Bool.true_or])
          · exact .inr ⟨member, later, owned⟩

-----------------------------------------------------------------------------------------
-- Names of one field
-----------------------------------------------------------------------------------------

/-- A member is stored the same under each name of its field, with each text of its value. -/
theorem store_respelled {name other : String} {value text : List UInt8}
    (found : kind.field? name = some field) (otherFound : kind.field? other = some field)
    (same
      : ∀ draft, readDocument (field.read draft) text = readDocument (field.read draft) value)
    (draft : σ) (first second : List WrittenMember)
    : kind.store draft (first ++ (other, text) :: second)
      = kind.store draft (first ++ (name, value) :: second) := by
  have stored (draft : σ)
      : kind.storeMember draft (other, text) = kind.storeMember draft (name, value) := by
    unfold storeMember
    dsimp only
    rw [found, otherFound]
    dsimp only
    rw [same draft]
  simp only [store, List.foldlM_append, List.foldlM_cons, stored]

/-- Where a member of a field is added anywhere to members that have one of the field already, some
member stands behind others that can be stored and have set its field. Witness: the later one of the
two members of the field.
-/
theorem exists_repeated (separate : kind.Separate) {name other : String} {value text : List UInt8}
    (found : kind.field? name = some field) (otherFound : kind.field? other = some field)
    (same
      : ∀ draft, readDocument (field.read draft) text = readDocument (field.read draft) value)
    {first second front back : List WrittenMember}
    (stored : kind.store draft (first ++ (name, value) :: second) = .ok final)
    (split : first ++ (name, value) :: second = front ++ back)
    : ∃ before repeated after next,
        front ++ (other, text) :: back = before ++ repeated :: after
        ∧ kind.field? repeated.1 = some field
        ∧ kind.store draft before = .ok next
        ∧ field.isSet next = true := by
  have known := mem_of_field? found
  have addedBefore {later : List WrittenMember} (split : first = front ++ later)
      (rest : back = later ++ (name, value) :: second)
      : ∃ before repeated after next,
          front ++ (other, text) :: back = before ++ repeated :: after
          ∧ kind.field? repeated.1 = some field
          ∧ kind.store draft before = .ok next
          ∧ field.isSet next = true := by
    have shorter : first ++ (name, value) :: second = first ++ [(name, value)] ++ second := by simp
    rw [shorter] at stored
    obtain ⟨next, untilMember, _⟩ := store_append_eq_ok_iff.mp stored
    rw [← store_respelled found otherFound same, split] at untilMember
    have moved : (front ++ later ++ [(other, text)]).Perm (front ++ (other, text) :: later) := by
      rw [List.append_assoc]
      exact List.perm_append_comm.append_left front
    refine ⟨front ++ (other, text) :: later, (name, value), second, next, by simp [rest], found,
      store_perm separate moved untilMember, ?_⟩
    exact isSet_of_store separate (store_perm separate moved untilMember) known
      (.inr ⟨(other, text), by simp, otherFound⟩)
  rcases List.append_eq_append_iff.mp split with ⟨earlier, rfl, rest⟩ | ⟨later, split, rest⟩
  · cases earlier with
    | nil => exact @addedBefore [] (by simp) (by simpa using rest.symm)
    | cons member earlier =>
        obtain ⟨rfl, rfl⟩ := List.cons.inj rest
        rw [split] at stored
        obtain ⟨next, untilFront, _⟩ := store_append_eq_ok_iff.mp stored
        refine ⟨_, (other, text), back, next, rfl, otherFound, untilFront, ?_⟩
        exact isSet_of_store separate untilFront known (.inr ⟨(name, value), by simp, found⟩)
  · exact addedBefore split rest

/-- A record is read the same under each name of a field, with each text of its value. -/
theorem readDocument_respelled (faithful : kind.FieldsFaithful) {name other : String}
    {value text bytes respelled : List UInt8} {first second : List WrittenMember} {result : α}
    (found : kind.field? name = some field) (otherFound : kind.field? other = some field)
    (same
      : ∀ draft, readDocument (field.read draft) text = readDocument (field.read draft) value)
    (members : objectMembers? bytes = some (first ++ (name, value) :: second))
    (others : objectMembers? respelled = some (first ++ (other, text) :: second))
    (done : readDocument kind.read bytes = .ok result)
    : readDocument kind.read respelled = .ok result := by
  obtain ⟨draft, stored, finished⟩ := (readDocument_eq_ok_iff faithful members).mp done
  refine (readDocument_eq_ok_iff faithful others).mpr ⟨draft, ?_, finished⟩
  rw [store_respelled found otherFound same, stored]

/-- A record that has a field under two of its names, or twice under one, is refused wherever the
members stand and whatever follows the record.
-/
theorem read_repeated (faithful : kind.FieldsFaithful) (separate : kind.Separate)
    {name other : String} {value text bytes extended : List UInt8}
    {first second front back : List WrittenMember} {result : α}
    (found : kind.field? name = some field) (otherFound : kind.field? other = some field)
    (same
      : ∀ draft, readDocument (field.read draft) text = readDocument (field.read draft) value)
    (members : objectMembers? bytes = some (first ++ (name, value) :: second))
    (split : first ++ (name, value) :: second = front ++ back)
    (others : objectMembers? extended = some (front ++ (other, text) :: back))
    (done : readDocument kind.read bytes = .ok result) (behind : List UInt8)
    : kind.read (extended ++ behind) = .error (.duplicateField field.name) := by
  obtain ⟨final, stored, _⟩ := (readDocument_eq_ok_iff faithful members).mp done
  obtain ⟨before, ⟨spelling, repeated⟩, after, next, same, owned, storedBefore, isSet⟩ :=
    exists_repeated separate found otherFound same stored split
  obtain ⟨rest, written, _⟩ := objectMembers?_eq_some_iff.mp others
  obtain ⟨taken, rfl, _, again⟩ := readWrittenMembers_faithful.takes _ _ _ written
  rw [same] at again
  rw [List.append_assoc]
  refine read_eq_error faithful (again (rest ++ behind) False.elim) storedBefore ?_
  exact fun colon _ _ => readMember_repeated owned isSet colon

end RecordKind

end LogIntake.Json
