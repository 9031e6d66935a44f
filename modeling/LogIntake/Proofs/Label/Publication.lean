import LogIntake.Label.Publish
import LogIntake.Proofs.Label.SetLookup

/-! What publication makes of a label set, as lookups: a static label wins, and otherwise a
label goes out with its value if its name is fit for a record.
-/

namespace LogIntake

open Label

namespace RecordLabels

/-- Record labels are determined by their lookups. -/
theorem ext_get? {left right : RecordLabels}
    (agree : ∀ name, left.get? name = right.get? name)
    : left = right := by
  have maps := NameMap.ext_get? agree
  cases left
  cases right
  simpa using maps

theorem mem_toList_iff {labels : RecordLabels} {name value : String}
    : (name, value) ∈ labels.toList ↔ labels.get? name = some value :=
  NameMap.mem_entries_iff

theorem isRecordName_of_get? {labels : RecordLabels} {name value : String}
    (found : labels.get? name = some value)
    : isRecordName name = true :=
  labels.named (name, value) (mem_toList_iff.mpr found)

/-- Where a name is unfit for a record, every lookup fails. -/
theorem get?_of_unfit {labels : RecordLabels} {name : String} (unfit : ¬ isRecordName name)
    : labels.get? name = none := by
  cases found : labels.get? name with
  | none => rfl
  | some value => exact absurd (isRecordName_of_get? found) unfit

@[simp]
theorem get?_empty (name : String) : empty.get? name = none :=
  rfl

/-- A lenient insertion changes the lookup of its own name, and that only if it is fit. -/
@[simp]
theorem get?_insertIfNamed (labels : RecordLabels) (name value key : String)
    : (labels.insertIfNamed name value).get? key
      = if key = name ∧ isRecordName name then some value else labels.get? key := by
  unfold insertIfNamed
  split
  case isTrue fit =>
    simp only [fit, and_true]
    exact NameMap.get?_insert labels.map name value key
  case isFalse unfit => simp [unfit]

/-- Lenient insertion of entries overlays their lookups; the last entry of a name wins, by
induction on the entries.
-/
theorem get?_foldl_insertIfNamed (entries : List (String × String)) (labels : RecordLabels)
    (key : String) (fit : isRecordName key = true)
    : (entries.foldl (fun labels entry => labels.insertIfNamed entry.1 entry.2) labels).get? key
      = (entries.reverse.lookup key).or (labels.get? key) := by
  induction entries generalizing labels with
  | nil => rfl
  | cons head tail ih =>
      rw [List.foldl_cons, ih, get?_insertIfNamed, List.reverse_cons, List.lookup_append]
      cases later : tail.reverse.lookup key with
      | some value => rfl
      | none =>
          by_cases same : key = head.1
          · rw [if_pos ⟨same, same ▸ fit⟩, lookup_cons_entry, if_pos same]
            rfl
          · rw [if_neg (fun both => same both.1), lookup_cons_entry, if_neg same]
            rfl

/-- A strict insertion succeeds exactly for fit names, and then it is the lenient one. -/
theorem insert_eq_ok_iff {labels result : RecordLabels} {name value : String}
    : labels.insert name value = .ok result
      ↔ isRecordName name = true ∧ result = labels.insertIfNamed name value := by
  unfold insert insertIfNamed
  split
  case h_1 checked =>
    have fit := checkRecordName_eq_ok_iff.mp checked
    simp [fit, eq_comm]
  case h_2 cause checked =>
    have unfit : ¬ isRecordName name = true := by
      intro fit
      rw [checkRecordName_eq_ok_iff.mpr fit] at checked
      cases checked
    simp [unfit]

/-- A strict insertion fails as the check of its name does. -/
theorem insert_eq_error_iff {labels : RecordLabels} {name value : String} {cause : NameError}
    : labels.insert name value = .error cause ↔ checkRecordName name = .error cause := by
  unfold insert
  split
  case h_1 checked => simp [checked]
  case h_2 checked => simp [checked]

/-- Merging overlays the lookups, those of the added labels first. -/
@[simp]
theorem get?_merge (base added : RecordLabels) (key : String)
    : (base.merge added).get? key = (added.get? key).or (base.get? key) := by
  by_cases fit : isRecordName key = true
  · rw [merge, get?_foldl_insertIfNamed _ base key fit,
      lookup_reverse_of_ascending added.map.ascending]
    rfl
  · rw [get?_of_unfit fit, get?_of_unfit fit, get?_of_unfit fit]
    rfl

end RecordLabels

namespace LabelSet

/-- A published label is the static one of its name, or else the one of the set if its name
is fit for a record. Witness: the names of a set are unique, so every fit label survives the
pass over the set.
-/
@[simp]
theorem get?_publish (labels : LabelSet) (static : RecordLabels) (name : String)
    : (labels.publish static).get? name
      = (static.get? name).or (if isRecordName name then labels.get? name else none) := by
  unfold publish
  rw [RecordLabels.get?_merge]
  by_cases fit : isRecordName name = true
  · have kept := RecordLabels.get?_foldl_insertIfNamed labels.map.entries .empty name fit
    rw [lookup_reverse_of_ascending labels.map.ascending] at kept
    simp only [RecordLabels.get?_empty, Option.or_none] at kept
    simp only [toList, NameMap.toList, kept, if_pos fit]
    rfl
  · rw [if_neg fit, RecordLabels.get?_of_unfit fit, RecordLabels.get?_of_unfit fit]

/-- Publication sees nothing but the lookups of fit names. -/
theorem publish_congr {left right : LabelSet}
    (agree : ∀ name, isRecordName name = true → left.get? name = right.get? name)
    (static : RecordLabels)
    : left.publish static = right.publish static := by
  apply RecordLabels.ext_get?
  intro name
  rw [get?_publish, get?_publish]
  by_cases fit : isRecordName name = true
  · rw [agree name fit]
  · rw [if_neg fit, if_neg fit]

end LabelSet

end LogIntake
