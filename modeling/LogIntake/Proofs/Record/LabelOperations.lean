import LogIntake.Proofs.Json.TextMembers
import LogIntake.Proofs.Label.NameGrammar
import LogIntake.Proofs.Record.ReadBack

/-! The labels of a record under the operations that change them. There are three ways in, and each
of them checks names: labels are inserted one by one, laid over others, or loaded from a document.
An operation that is refused leaves the labels as they were.
-/

namespace LogIntake

open Json Label Text.Utf8

/-- The names that a record's labels may have. -/
def Label.IsFit (name : String) : Prop :=
  IsLabelName name ∧ ¬IsReserved name

instance (name : String) : Decidable (IsFit name) :=
  inferInstanceAs (Decidable (_ ∧ _))

namespace RecordLabels

/-- An operation on the labels of a record. -/
inductive Operation where
  | insert (name value : String)
  | merge (added : RecordLabels)
  | load (document : List UInt8)

/-- Why an operation is refused. -/
inductive Refusal where
  | name (cause : NameError)
  | document (cause : DecodeError)

namespace Operation

/-- What an operation makes of labels, unless it is refused. -/
def attempt (labels : RecordLabels) : Operation → Except Refusal RecordLabels
  | .insert name value => (labels.insert name value).mapError .name
  | .merge added => .ok (labels.merge added)
  | .load document => (decode document).mapError .document

/-- The labels after an operation, which are the ones before it if it is refused. -/
def perform (labels : RecordLabels) (operation : Operation) : RecordLabels :=
  match operation.attempt labels with
  | .ok next => next
  | .error _ => labels

end Operation

/-- The labels that operations leave of none. -/
def ofOperations (operations : List Operation) : RecordLabels :=
  operations.foldl Operation.perform empty

-----------------------------------------------------------------------------------------
-- Inserting
-----------------------------------------------------------------------------------------

/-- A label is inserted exactly if its name is fit. A reserved name is refused as such, also where
it is no label name, and only other names are refused for their form.
-/
structure Inserts (labels : RecordLabels) (name value : String) : Prop where
  reserved : labels.insert name value = .error (.reserved name) ↔ IsReserved name
  invalid
    : labels.insert name value = .error (.invalid name) ↔ ¬IsReserved name ∧ ¬IsLabelName name
  refused : (∃ cause, labels.insert name value = .error cause) ↔ IsReserved name ∨ ¬IsLabelName name
  unchanged
    : IsReserved name ∨ ¬IsLabelName name
      → (Operation.insert name value).perform labels = labels
  written
    : IsFit name
      → ∀ key,
          ((Operation.insert name value).perform labels).get? key
          = if key = name then some value else labels.get? key

/-- The check of a name looks for reserved names first. -/
theorem checkRecordName_eq (name : String)
    : checkRecordName name
      = if IsReserved name then .error (.reserved name)
        else if IsLabelName name then .ok ()
        else .error (.invalid name) := by
  simp only [checkRecordName, isInternal_iff, isValidName_iff]

/-- Inserting follows the check of the name, by the three outcomes of the check. -/
theorem inserts (labels : RecordLabels) (name value : String) : labels.Inserts name value := by
  have refusal (cause : NameError)
      : labels.insert name value = .error cause ↔ checkRecordName name = .error cause :=
    insert_eq_error_iff
  by_cases reserved : IsReserved name
  · have checked : checkRecordName name = .error (.reserved name) := by
      rw [checkRecordName_eq, if_pos reserved]
    have done := (refusal _).mpr checked
    exact {
      reserved := by simp [done, reserved]
      invalid := by simp [done, reserved]
      refused := by simp [done, reserved]
      unchanged := fun _ => by simp [Operation.perform, Operation.attempt, done, Except.mapError]
      written := fun fit => absurd reserved fit.2
    }
  by_cases label : IsLabelName name
  · have fit : isRecordName name = true := isRecordName_iff.mpr ⟨label, reserved⟩
    have done : labels.insert name value = .ok (labels.insertIfNamed name value) :=
      insert_eq_ok_iff.mpr ⟨fit, rfl⟩
    exact {
      reserved := by simp [done, reserved]
      invalid := by simp [done, label]
      refused := by simp [done, reserved, label]
      unchanged := fun unfit => by simp [reserved, label] at unfit
      written := fun _ key => by
        simp [Operation.perform, Operation.attempt, done, Except.mapError, fit]
    }
  · have checked : checkRecordName name = .error (.invalid name) := by
      rw [checkRecordName_eq, if_neg reserved, if_neg label]
    have done := (refusal _).mpr checked
    exact {
      reserved := by simp [done, reserved]
      invalid := by simp [done, reserved, label]
      refused := by simp [done, label]
      unchanged := fun _ => by simp [Operation.perform, Operation.attempt, done, Except.mapError]
      written := fun fit => absurd fit.1 label
    }

-----------------------------------------------------------------------------------------
-- Loading
-----------------------------------------------------------------------------------------

/-- Labels are loaded from an object of strings, of which they hold the last one of each name. -/
theorem decode_eq_ok_iff {document : List UInt8} {labels : RecordLabels}
    : decode document = .ok labels
      ↔ ∃ entries, TextMembers document entries ∧ labels.map = NameMap.ofList entries := by
  have reads {bytes rest : List UInt8}
      : RecordLabels.read bytes = .ok (labels, rest)
        ↔ readTextMap bytes = .ok (labels.map, rest) := by
    rw [RecordLabels.read, bind_eq_ok_iff]
    constructor
    · intro done
      obtain ⟨⟨map, behind⟩, mapRead, checks⟩ := done
      obtain ⟨_, made, returned⟩ := bind_eq_ok_iff.mp checks
      cases returned
      rwa [ofMap_eq_ok_iff.mp (mapError_eq_ok_iff.mp made)]
    · intro mapRead
      refine ⟨_, mapRead, bind_eq_ok_iff.mpr ⟨labels, ?_, rfl⟩⟩
      exact mapError_eq_ok_iff.mpr labels.ofMap_map
  rw [decode, readDocument_eq_ok_iff, ← readTextMap_document_eq_ok_iff, readDocument_eq_ok_iff]
  simp only [reads]

/-- An object of strings that is refused has a name that fails the check, with the error of that
check.
-/
theorem exists_of_decode_eq_error {document : List UInt8} {entries : List (String × String)}
    (texts : TextMembers document entries) {fault : DecodeError}
    (failed : decode document = .error fault)
    : ∃ entry ∈ entries,
        ∃ cause, checkRecordName entry.1 = .error cause ∧ fault = .rejected cause.message := by
  have map := readTextMap_document_eq_ok_iff.mpr ⟨entries, texts, rfl⟩
  obtain ⟨rest, mapRead, _⟩ := readDocument_eq_ok_iff.mp map
  cases made : ofMap (NameMap.ofList entries) with
  | ok labels =>
      have own : labels.map = NameMap.ofList entries := ofMap_eq_ok_iff.mp made
      cases failed.symm.trans (decode_eq_ok_iff.mpr ⟨entries, texts, own⟩)
  | error cause =>
      have refused : RecordLabels.read document = .error (.rejected cause.message) := by
        simp only [RecordLabels.read, mapRead, bind, Except.bind, made, Except.mapError]
      obtain rfl := Except.error.inj (failed.symm.trans (readDocument_eq_error refused))
      obtain ⟨⟨name, value⟩, among, checked⟩ := exists_of_insertAll_eq_error made
      have named : name ∈ (NameMap.ofList entries).names :=
        NameMap.mem_names_iff.mpr ⟨value, NameMap.mem_entries_iff.mp among⟩
      obtain ⟨written, member⟩ := NameMap.mem_names_ofList_iff.mp named
      exact ⟨(name, written), member, cause, checked, rfl⟩

/-- An object of strings is loaded exactly if all of its names are fit, and then the last one of
each name counts. Otherwise the check of one of the names is the error, and nothing changes.
-/
structure Loads (labels : RecordLabels) (document : List UInt8) (entries : List (String × String))
    : Prop where
  accepted : (∃ next, decode document = .ok next) ↔ ∀ entry ∈ entries, IsFit entry.1
  loaded
    : (∀ entry ∈ entries, IsFit entry.1)
      → ∀ key,
          ((Operation.load document).perform labels).get? key = entries.reverse.lookup key
  refused
    : (∃ entry ∈ entries, ¬IsFit entry.1)
      → (∃ entry ∈ entries,
            ∃ cause,
              checkRecordName entry.1 = .error cause
              ∧ decode document = .error (.rejected cause.message))
        ∧ (Operation.load document).perform labels = labels

theorem loads (labels : RecordLabels) {document : List UInt8} {entries : List (String × String)}
    (texts : TextMembers document entries)
    : labels.Loads document entries := by
  have loadedFrom {next : RecordLabels} (done : decode document = .ok next)
      : next.map = NameMap.ofList entries := by
    obtain ⟨others, otherTexts, own⟩ := decode_eq_ok_iff.mp done
    rw [own, otherTexts.unique texts]
  have accepted : (∃ next, decode document = .ok next) ↔ ∀ entry ∈ entries, IsFit entry.1 := by
    constructor
    · intro success entry among
      obtain ⟨next, done⟩ := success
      have named : entry.1 ∈ next.map.names := by
        rw [loadedFrom done]
        exact NameMap.mem_names_ofList_iff.mpr ⟨entry.2, among⟩
      obtain ⟨value, found⟩ := NameMap.mem_names_iff.mp named
      exact isRecordName_iff.mp (isRecordName_of_get? found)
    · intro fit
      have named : ∀ entry ∈ (NameMap.ofList entries).entries, isRecordName entry.1 = true := by
        intro entry member
        have name : entry.1 ∈ (NameMap.ofList entries).names := List.mem_map_of_mem member
        obtain ⟨value, among⟩ := NameMap.mem_names_ofList_iff.mp name
        exact isRecordName_iff.mpr (fit (entry.1, value) among)
      exact ⟨⟨_, named⟩, decode_eq_ok_iff.mpr ⟨entries, texts, rfl⟩⟩
  refine ⟨accepted, ?_, ?_⟩
  · intro fit key
    obtain ⟨next, done⟩ := accepted.mpr fit
    have performed : (Operation.load document).perform labels = next := by
      simp only [Operation.perform, Operation.attempt, done, Except.mapError]
    rw [performed, get?, loadedFrom done, NameMap.get?_ofList]
  · intro unfit
    obtain ⟨entry, among, unfit⟩ := unfit
    cases outcome : decode document with
    | ok next => exact absurd (accepted.mp ⟨next, outcome⟩ entry among) unfit
    | error fault =>
        obtain ⟨offender, member, cause, checked, rfl⟩ := exists_of_decode_eq_error texts outcome
        refine ⟨⟨offender, member, cause, checked, rfl⟩, ?_⟩
        simp only [Operation.perform, Operation.attempt, outcome, Except.mapError]

/-- What is no object of strings is refused, and nothing changes. -/
theorem load_of_not_texts (labels : RecordLabels) {document : List UInt8}
    (none : ¬∃ entries, TextMembers document entries)
    : (∃ fault, decode document = .error fault)
      ∧ (Operation.load document).perform labels = labels := by
  cases outcome : decode document with
  | ok next =>
      obtain ⟨entries, texts, _⟩ := decode_eq_ok_iff.mp outcome
      exact absurd ⟨entries, texts⟩ none
  | error fault =>
      refine ⟨⟨fault, rfl⟩, ?_⟩
      simp only [Operation.perform, Operation.attempt, outcome, Except.mapError]

/-- Labels are loaded from the document that they are printed as. -/
theorem decode_compact_toJson (labels : RecordLabels)
    : decode (encode labels.toJson.compact) = .ok labels := by
  rw [decode, compact, encode_ofList]
  exact (spells_readLabels labels).document

-----------------------------------------------------------------------------------------
-- Operations in turn
-----------------------------------------------------------------------------------------

/-- Whatever operations came before, the labels have label names that are not reserved, and every
further operation on them does one of three things. Inserting checks the name, for being reserved
first. Laying other labels over them takes the value of the other ones where there is one. Loading
accepts objects of strings whose names all pass that check. What is refused changes nothing, and the
document that the labels are printed as is loaded as the same labels.
-/
theorem operations_checked_and_atomic (operations : List Operation)
    : let labels := ofOperations operations
      (∀ name ∈ labels.names, IsLabelName name ∧ ¬IsReserved name)
      ∧ (∀ name value, labels.Inserts name value)
      ∧ (∀ added key,
          ((Operation.merge added).perform labels).get? key
          = (added.get? key).or (labels.get? key))
      ∧ (∀ document entries, TextMembers document entries → labels.Loads document entries)
      ∧ (∀ document,
          (¬∃ entries, TextMembers document entries)
          → (∃ fault, decode document = .error fault)
            ∧ (Operation.load document).perform labels = labels)
      ∧ decode (encode labels.toJson.compact) = .ok labels := by
  intro labels
  refine ⟨?_, labels.inserts, ?_, fun document entries texts => labels.loads texts,
    fun document none => labels.load_of_not_texts none, labels.decode_compact_toJson⟩
  · intro name member
    obtain ⟨value, found⟩ := NameMap.mem_names_iff.mp member
    exact isRecordName_iff.mp (isRecordName_of_get? found)
  · exact labels.get?_merge

/-- Two refused insertions leave no trace, a name that fails both checks is reported as reserved, of
two zones in a document the second one counts, and a document with a reserved name changes nothing.
-/
theorem operations_checked_and_atomic_zones
    : let zone := empty.insertIfNamed "zone" "a"
      let operations :=
        [Operation.insert "job" "x", .insert "__job" "y", .insert "a b" "z", .merge zone]
      let labels := ofOperations operations
      let document := encode "\x7b\"zone\":\"b\",\"zone\":\"c\"\x7d"
      let unfit := encode "\x7b\"zone\":\"b\",\"__zone\":\"c\"\x7d"
      labels.toList = [("job", "x"), ("zone", "a")]
      ∧ labels.insert "__a b" "z" = .error (.reserved "__a b")
      ∧ (TextMembers document [("zone", "b"), ("zone", "c")]
        ∧ ((Operation.load document).perform labels).get? "zone" = some "c"
        ∧ ((Operation.load document).perform labels).get? "job" = none)
      ∧ (TextMembers unfit [("zone", "b"), ("__zone", "c")]
        ∧ (Operation.load unfit).perform labels = labels)
      ∧ (Operation.load (encode "[]")).perform labels = labels
      ∧ decode (encode labels.toJson.compact) = .ok labels := by
  intro zone operations labels document unfit
  obtain ⟨_, inserts, _, loads, others, readBack⟩ := operations_checked_and_atomic operations
  have texts : TextMembers document [("zone", "b"), ("zone", "c")] :=
    ⟨[("zone", encode "\"b\""), ("zone", encode "\"c\"")], by decide +kernel,
      .cons ⟨rfl, parse_eq_str_iff.mpr rfl⟩ (.cons ⟨rfl, parse_eq_str_iff.mpr rfl⟩ .nil)⟩
  have unfitTexts : TextMembers unfit [("zone", "b"), ("__zone", "c")] :=
    ⟨[("zone", encode "\"b\""), ("__zone", encode "\"c\"")], by decide +kernel,
      .cons ⟨rfl, parse_eq_str_iff.mpr rfl⟩ (.cons ⟨rfl, parse_eq_str_iff.mpr rfl⟩ .nil)⟩
  have loaded := (loads document _ texts).loaded (by decide +kernel)
  have list : ¬∃ entries, TextMembers (encode "[]") entries := by
    intro object
    obtain ⟨entries, members, written, _⟩ := object
    have none : objectMembers? (encode "[]") = none := by decide +kernel
    cases none.symm.trans written
  refine ⟨by decide +kernel, (inserts "__a b" "z").reserved.mpr (by decide +kernel),
    ⟨texts, loaded "zone", loaded "job"⟩, ⟨unfitTexts, ?_⟩, (others _ list).2, readBack⟩
  exact ((loads unfit _ unfitTexts).refused ⟨("__zone", "c"), by simp, by decide +kernel⟩).2

end RecordLabels

end LogIntake
