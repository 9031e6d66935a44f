import LogIntake.Proofs.DataFormat.Fields
import LogIntake.Proofs.Label.Publication

/-! Maps, labels and lists that are built from their own entries and items, one by one. That is how
every reader builds them, and what was written comes out.
-/

namespace LogIntake

open Label

/-- Entries that are stored one by one are found from behind, by induction on them. -/
theorem NameMap.get?_foldl_insert (entries : List (String × String)) (map : NameMap)
    (name : String)
    : (entries.foldl (fun map entry => map.insert entry.1 entry.2) map).get? name
      = (entries.reverse.lookup name).or (map.get? name) := by
  induction entries generalizing map with
  | nil => rfl
  | cons entry entries ih =>
      rw [List.foldl_cons, ih, NameMap.get?_insert, List.reverse_cons, List.lookup_append,
        lookup_cons_entry]
      cases entries.reverse.lookup name <;> by_cases same : name = entry.1 <;> simp [same]

/-- A map is built from its own entries. -/
theorem NameMap.ofList_entries (map : NameMap) : NameMap.ofList map.entries = map := by
  refine NameMap.ext_get? fun name => ?_
  rw [ofList, get?_foldl_insert, lookup_reverse_of_ascending map.ascending, get?_empty,
    Option.or_none]
  rfl

/-- A map that is built from entries holds the last entry of each name. -/
theorem NameMap.get?_ofList (entries : List (String × String)) (name : String)
    : (ofList entries).get? name = entries.reverse.lookup name := by
  rw [ofList, get?_foldl_insert, get?_empty, Option.or_none]

/-- The names of a map that is built from entries are those of the entries. -/
theorem NameMap.mem_names_ofList_iff {entries : List (String × String)} {name : String}
    : name ∈ (ofList entries).names ↔ ∃ value, (name, value) ∈ entries := by
  simp only [mem_names_iff, get?_ofList]
  constructor
  · intro found
    obtain ⟨value, found⟩ := found
    obtain ⟨before, after, split, _⟩ := List.lookup_eq_some_iff.mp found
    exact ⟨value, List.mem_reverse.mp (split ▸ by simp)⟩
  · intro among
    obtain ⟨value, among⟩ := among
    cases found : entries.reverse.lookup name with
    | some last => exact ⟨last, rfl⟩
    | none =>
        have other := List.lookup_eq_none_iff.mp found (name, value) (List.mem_reverse.mpr among)
        simp at other

namespace RecordLabels

/-- Labels with fit names are stored without an error, by induction on them. -/
theorem insertAll_eq_ok {entries : List (String × String)} {labels : RecordLabels}
    (fit : ∀ entry ∈ entries, isRecordName entry.1 = true)
    : insertAll labels entries
      = .ok (entries.foldl (fun labels entry => labels.insertIfNamed entry.1 entry.2) labels) := by
  unfold insertAll
  induction entries generalizing labels with
  | nil => rfl
  | cons entry entries ih =>
      obtain ⟨first, rest⟩ := List.forall_mem_cons.mp fit
      rw [List.foldlM_cons, insert_eq_ok_iff.mpr ⟨first, rfl⟩]
      exact ih rest

/-- Labels that are stored without an error have fit names, by induction on them. -/
theorem fit_of_insertAll {entries : List (String × String)} {labels stored : RecordLabels}
    (done : insertAll labels entries = .ok stored)
    : ∀ entry ∈ entries, isRecordName entry.1 = true := by
  induction entries generalizing labels with
  | nil => nofun
  | cons entry entries ih =>
      rw [insertAll, List.foldlM_cons] at done
      obtain ⟨next, inserted, remaining⟩ := bind_eq_ok_iff.mp done
      exact List.forall_mem_cons.mpr ⟨(insert_eq_ok_iff.mp inserted).1, ih remaining⟩

/-- An error in storing labels is that of the check of one of their names, by induction on them. -/
theorem exists_of_insertAll_eq_error {entries : List (String × String)} {labels : RecordLabels}
    {cause : NameError} (failed : insertAll labels entries = .error cause)
    : ∃ entry ∈ entries, checkRecordName entry.1 = .error cause := by
  induction entries generalizing labels with
  | nil => cases failed
  | cons entry entries ih =>
      rw [insertAll, List.foldlM_cons] at failed
      cases inserted : labels.insert entry.1 entry.2 with
      | error own =>
          rw [inserted] at failed
          cases failed
          exact ⟨entry, List.mem_cons_self, insert_eq_error_iff.mp inserted⟩
      | ok next =>
          rw [inserted] at failed
          obtain ⟨offender, among, refused⟩ := ih failed
          exact ⟨offender, List.mem_cons_of_mem _ among, refused⟩

/-- Labels are made of their own map. -/
theorem ofMap_map (labels : RecordLabels) : ofMap labels.map = .ok labels := by
  rw [ofMap, insertAll_eq_ok labels.named]
  refine congrArg Except.ok (ext_get? fun name => ?_)
  by_cases fit : isRecordName name = true
  · rw [get?_foldl_insertIfNamed _ _ _ fit, lookup_reverse_of_ascending labels.map.ascending,
      get?_empty, Option.or_none]
    rfl
  · rw [get?_of_unfit fit, get?_of_unfit fit]

/-- Labels are made of no map but their own. -/
theorem ofMap_eq_ok_iff {map : NameMap} {labels : RecordLabels}
    : ofMap map = .ok labels ↔ labels.map = map := by
  constructor
  · intro made
    have own : ofMap map = .ok ⟨map, fit_of_insertAll made⟩ := ofMap_map ⟨map, _⟩
    rw [← Except.ok.inj (own.symm.trans made)]
  · intro own
    exact own ▸ ofMap_map labels

end RecordLabels

namespace DataFormat

variable {ν ε : Type}

/-- Texts by name are decoded into the map whose entries they are. -/
theorem decodeTexts_entries {format : DataFormat ν ε} (wrap : String → ν)
    (text : ∀ value, format.text (wrap value) = .ok value) {value : ν} {map : NameMap}
    (entries : format.entries value = .ok (map.entries.map fun entry => (entry.1, wrap entry.2)))
    : format.decodeTexts value = .ok map := by
  have stored (entries : List (String × String)) (start : NameMap)
      : (entries.map fun entry => (entry.1, wrap entry.2)).foldlM (fun map entry => do
            let text ← format.text entry.2
            return map.insert entry.1 text) start
        = .ok (entries.foldl (fun map entry => map.insert entry.1 entry.2) start) := by
    induction entries generalizing start with
    | nil => rfl
    | cons entry entries ih =>
        rw [List.map_cons, List.foldlM_cons, text]
        exact ih _
  refine bind_eq_ok_iff.mpr ⟨_, entries, ?_⟩
  rw [stored]
  exact congrArg Except.ok map.ofList_entries

/-- A member of a known name that has not been seen is stored, and then the members behind it. -/
theorem storeMembers_cons_eq_ok {α : Type} {format : DataFormat ν ε} {fields : List (Field ν ε α)}
    {field : Field ν ε α} {seen : List String} {record next final : α} {name : String} {value : ν}
    {members : List (String × ν)}
    (known : (fields.find? fun field => field.name = name) = some field)
    (fresh : seen.contains name = false) (stored : field.store record value = .ok next)
    (rest : format.storeMembers fields (name :: seen) next members = .ok final)
    : format.storeMembers fields seen record ((name, value) :: members) = .ok final := by
  rw [storeMembers, known]
  dsimp only
  rw [fresh]
  exact bind_eq_ok_iff.mpr ⟨next, stored, rest⟩

/-- Items are decoded one by one into what they were made of. -/
theorem decodeList_map {α : Type} {format : DataFormat ν ε} (decode : ν → Except ε α)
    {wrap : α → ν} {items : List α} (own : ∀ item ∈ items, decode (wrap item) = .ok item)
    {value : ν} (listed : format.items value = .ok (items.map wrap))
    : format.decodeList decode value = .ok items := by
  refine bind_eq_ok_iff.mpr ⟨_, listed, ?_⟩
  clear listed
  induction items with
  | nil => rfl
  | cons item items ih =>
      obtain ⟨first, rest⟩ := List.forall_mem_cons.mp own
      rw [List.map_cons, List.mapM_cons, first, ih rest]
      rfl

end DataFormat

end LogIntake
