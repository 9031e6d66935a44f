import LogIntake.Label.LabelSet
import LogIntake.Proofs.NameMap.Lookup

/-! Label sets as partial functions from names to non-empty values. Setting the empty value
and removing a label leave the same lookups, so nothing can tell absent from empty.
-/

namespace LogIntake.LabelSet

/-- A set is determined by its lookups. -/
theorem ext_get? {left right : LabelSet} (agree : ∀ name, left.get? name = right.get? name)
    : left = right := by
  have maps := NameMap.ext_get? agree
  cases left
  cases right
  simpa using maps

theorem mem_toList_iff {labels : LabelSet} {name value : String}
    : (name, value) ∈ labels.toList ↔ labels.get? name = some value :=
  NameMap.mem_entries_iff

/-- No lookup gives the empty value. -/
theorem get?_ne_empty {labels : LabelSet} {name value : String}
    (found : labels.get? name = some value)
    : value ≠ "" :=
  labels.nonempty (name, value) (mem_toList_iff.mpr found)

@[simp]
theorem get?_empty (name : String) : empty.get? name = none :=
  rfl

@[simp]
theorem get?_filter (labels : LabelSet) (keep : String → String → Bool) (name : String)
    : (labels.filter keep).get? name = (labels.get? name).filter (keep name) :=
  NameMap.get?_filter labels.map keep name

@[simp]
theorem get?_erase (labels : LabelSet) (name key : String)
    : (labels.erase name).get? key = if key = name then none else labels.get? key :=
  NameMap.get?_erase labels.map name key

/-- Setting a label changes its own lookup only; the empty value makes it fail. -/
@[simp]
theorem get?_set (labels : LabelSet) (name value key : String)
    : (labels.set name value).get? key
      = if key = name then (if value = "" then none else some value) else labels.get? key := by
  unfold set
  split
  case isTrue => exact get?_erase labels name key
  case isFalse => exact NameMap.get?_insert labels.map name value key

/-- After several writes a label has the value of the last write to its name, if there was
one, by induction on the writes.
-/
theorem get?_setAll (labels : LabelSet) (writes : List (String × String)) (key : String)
    : (labels.setAll writes).get? key
      = match writes.reverse.lookup key with
        | none => labels.get? key
        | some value => if value = "" then none else some value := by
  induction writes generalizing labels with
  | nil => rfl
  | cons first rest ih =>
      have step : labels.setAll (first :: rest) = (labels.set first.1 first.2).setAll rest := rfl
      rw [step, ih, List.reverse_cons, List.lookup_append]
      cases later : rest.reverse.lookup key with
      | some value => rfl
      | none => by_cases same : key = first.1 <;> simp [lookup_cons_entry, same]

/-- Writes to other names leave a lookup as it is. -/
theorem get?_setAll_of_unwritten {labels : LabelSet} {writes : List (String × String)}
    {key : String} (unwritten : ∀ write ∈ writes, write.1 ≠ key)
    : (labels.setAll writes).get? key = labels.get? key := by
  have absent : writes.reverse.lookup key = none := by
    apply List.lookup_eq_none_iff.mpr
    intro write member
    exact bne_iff_ne.mpr (unwritten write (List.mem_reverse.mp member)).symm
  rw [get?_setAll, absent]

/-- The same writes on sets that agree on a name leave sets that agree on it. -/
theorem get?_setAll_congr {left right : LabelSet} {key : String}
    (agree : left.get? key = right.get? key) (writes : List (String × String))
    : (left.setAll writes).get? key = (right.setAll writes).get? key := by
  rw [get?_setAll, get?_setAll, agree]

theorem setAll_append (labels : LabelSet) (first second : List (String × String))
    : labels.setAll (first ++ second) = (labels.setAll first).setAll second :=
  List.foldl_append

/-- A label after several writes was there before or has been written. -/
theorem get?_setAll_origin {labels : LabelSet} {writes : List (String × String)}
    {key value : String} (found : (labels.setAll writes).get? key = some value)
    : labels.get? key = some value ∨ (key, value) ∈ writes := by
  rw [get?_setAll] at found
  cases last : writes.reverse.lookup key with
  | none =>
      rw [last] at found
      exact Or.inl found
  | some written =>
      rw [last] at found
      dsimp only at found
      split at found
      · cases found
      · cases found
        obtain ⟨before, after, split, _⟩ := List.lookup_eq_some_iff.mp last
        exact Or.inr (List.mem_reverse.mp (split ▸ by simp))

theorem mem_names_iff {labels : LabelSet} {name : String}
    : name ∈ labels.names ↔ ∃ value, labels.get? name = some value :=
  NameMap.mem_names_iff

/-- A write adds no name but its own. -/
theorem mem_names_set {labels : LabelSet} {name value key : String}
    (member : key ∈ (labels.set name value).names)
    : key = name ∨ key ∈ labels.names := by
  by_cases same : key = name
  · exact .inl same
  · simp only [mem_names_iff, get?_set, if_neg same] at member ⊢
    exact .inr member

/-- A filter adds no name. -/
theorem mem_names_filter {labels : LabelSet} {keep : String → String → Bool} {key : String}
    (member : key ∈ (labels.filter keep).names)
    : key ∈ labels.names := by
  simp only [mem_names_iff, get?_filter, Option.filter_eq_some_iff] at member ⊢
  obtain ⟨value, found, _⟩ := member
  exact ⟨value, found⟩

theorem contains_iff {labels : LabelSet} {name : String}
    : labels.contains name = true ↔ ∃ value, labels.get? name = some value :=
  Option.isSome_iff_exists

end LogIntake.LabelSet
