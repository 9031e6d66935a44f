import LogIntake.Proofs.InternalLabels.Origins
import LogIntake.Proofs.Text.ByteOrder

/-! Assembly as an overlay. What an entry says is laid over the base labels name by name: a fact
under its fixed name, and under a name of a family the value of the last key that is cleaned to the
rest of the name. Everywhere else the base shows through.
-/

namespace LogIntake.InternalLabels

/-- The label that a value makes: the empty value makes none. -/
def shown (value : String) : Option String :=
  if value = "" then none else some value

/-- The key is cleaned to the fragment, and it is the last such key in the order of bytes. -/
structure LastCleaned (sanitize : String → String) (source : NameMap)
    (fragment key value : String)
    : Prop where
  present : source.get? key = some value
  cleaned : sanitize key = fragment
  last
    : ∀ other ∈ source.names,
        sanitize other = fragment → other = key ∨ Text.Utf8.BytesBefore other key

/-- What assembly is to show under a name. -/
inductive Overlaid (entry : Entry) (base : LabelSet) (sanitize : String → String)
    : String → Option String → Prop
  | logName : Overlaid entry base sanitize logName (shown entry.logName)
  | resourceKind : Overlaid entry base sanitize resourceKind (shown entry.resource.kind)
  | severity : Overlaid entry base sanitize severity (shown entry.severity)
  | resourceLabel {fragment key value}
    (last : LastCleaned sanitize entry.resource.labels fragment key value)
    : Overlaid entry base sanitize (resourceFamily ++ fragment) (shown value)
  | entryLabel {fragment key value}
    (last : LastCleaned sanitize entry.labels fragment key value)
    : Overlaid entry base sanitize (entryFamily ++ fragment) (shown value)
  | base {name}
    (unfixed : name ∉ [InternalLabels.logName, InternalLabels.resourceKind,
      InternalLabels.severity])
    (noResourceLabel : ∀ key ∈ entry.resource.labels.names, name ≠ resourceFamily ++ sanitize key)
    (noEntryLabel : ∀ key ∈ entry.labels.names, name ≠ entryFamily ++ sanitize key)
    : Overlaid entry base sanitize name (base.get? name)

variable {sanitize : String → String} {source : NameMap} {family fragment key value name : String}

/-- There is only one last key. Witness: the order of bytes has no cycle. -/
theorem LastCleaned.unique {otherKey otherValue : String}
    (first : LastCleaned sanitize source fragment key value)
    (second : LastCleaned sanitize source fragment otherKey otherValue)
    : value = otherValue := by
  have firstMember := NameMap.mem_names_iff.mpr ⟨value, first.present⟩
  have secondMember := NameMap.mem_names_iff.mpr ⟨otherValue, second.present⟩
  have sameKey : key = otherKey := by
    rcases second.last key firstMember first.cleaned with same | before
    · exact same
    · rcases first.last otherKey secondMember second.cleaned with same | after
      · exact same.symm
      · have loop := String.lt_trans (Text.Utf8.bytesBefore_iff_lt.mp before)
          (Text.Utf8.bytesBefore_iff_lt.mp after)
        exact absurd loop (String.lt_irrefl key)
  subst sameKey
  exact Option.some.inj (first.present.symm.trans second.present)

/-- The write of a family that counts for a name comes from the last key. -/
theorem lastCleaned_of_lookup
    (found : (familyWrites family sanitize source).reverse.lookup name = some value)
    : ∃ key,
        name = family ++ sanitize key
        ∧ LastCleaned sanitize source (sanitize key) key value := by
  obtain ⟨key, member, renamed, last⟩ :=
    lookup_reverse_renamed (fun key => family ++ sanitize key) source.ascending found
  refine ⟨key, renamed.symm, NameMap.mem_entries_iff.mp member, rfl, ?_⟩
  intro other among cleaned
  obtain ⟨otherValue, present⟩ := NameMap.mem_names_iff.mp among
  have entry := NameMap.mem_entries_iff.mpr present
  have sameName : family ++ sanitize other = name := by rw [cleaned, renamed]
  exact (last _ entry sameName).imp_right Text.Utf8.bytesBefore_iff_lt.mpr

theorem no_key_of_lookup
    (absent : (familyWrites family sanitize source).reverse.lookup name = none)
    : ∀ key ∈ source.names, name ≠ family ++ sanitize key := by
  intro key among same
  obtain ⟨value, present⟩ := NameMap.mem_names_iff.mp among
  have written : (name, value) ∈ (familyWrites family sanitize source).reverse :=
    List.mem_reverse.mpr
      (List.mem_map.mpr ⟨_, NameMap.mem_entries_iff.mpr present, by rw [same]⟩)
  simpa using List.lookup_eq_none_iff.mp absent _ written

/-- The writes of a family show the value of the last key, whatever was there before. -/
theorem LastCleaned.get?_setAll (last : LastCleaned sanitize source fragment key value)
    (base : LabelSet)
    : (base.setAll (familyWrites family sanitize source)).get? (family ++ fragment)
      = shown value := by
  rw [LabelSet.get?_setAll]
  cases found : (familyWrites family sanitize source).reverse.lookup (family ++ fragment) with
  | none =>
      have among := NameMap.mem_names_iff.mpr ⟨value, last.present⟩
      exact absurd (by rw [last.cleaned]) (no_key_of_lookup found key among)
  | some written =>
      obtain ⟨other, same, otherLast⟩ := lastCleaned_of_lookup found
      have cleaned : sanitize other = fragment := by
        simpa [← String.toList_inj, String.toList_append] using same.symm
      rw [last.unique (cleaned ▸ otherLast)]
      rfl

-----------------------------------------------------------------------------------------
-- Assembly shows what is laid over the base
-----------------------------------------------------------------------------------------

variable {entry : Entry} {base : LabelSet} {result : Option String}

/-- A name that nothing is laid over is not written. -/
theorem entryWrites_ne (unfixed : name ∉ [logName, resourceKind, severity])
    (noResourceLabel : ∀ key ∈ entry.resource.labels.names, name ≠ resourceFamily ++ sanitize key)
    (noEntryLabel : ∀ key ∈ entry.labels.names, name ≠ entryFamily ++ sanitize key)
    : ∀ write ∈ entryWrites entry sanitize, write.1 ≠ name := by
  intro write member same
  rcases List.mem_append.mp member with front | label
  · rcases List.mem_append.mp front with fixed | label
    · exact unfixed (same ▸ List.mem_map_of_mem fixed)
    · obtain ⟨⟨key, value⟩, among, rfl⟩ := List.mem_map.mp label
      exact noResourceLabel key (List.mem_map_of_mem among) same.symm
  · obtain ⟨⟨key, value⟩, among, rfl⟩ := List.mem_map.mp label
    exact noEntryLabel key (List.mem_map_of_mem among) same.symm

/-- Under a name with an owner, assembly shows what is written for the owner. -/
theorem get?_assemble_of_owned {origin : Origin} (member : origin ∈ entryOrigins entry)
    (owned : origin.Owns name)
    : (assemble entry base sanitize).get? name
      = (base.setAll (origin.writes sanitize)).get? name := by
  rw [assemble_eq_setAll, entryWrites_eq]
  exact get?_setAll_of_owned base (entryOrigins_apart entry) member owned

theorem get?_assemble_fact (member : .fact name value ∈ entryOrigins entry)
    : (assemble entry base sanitize).get? name = shown value := by
  rw [get?_assemble_of_owned member rfl]
  simp [Origin.writes, LabelSet.setAll, shown]

theorem get?_assemble_family (member : .family family source ∈ entryOrigins entry)
    (last : LastCleaned sanitize source fragment key value)
    : (assemble entry base sanitize).get? (family ++ fragment) = shown value := by
  rw [get?_assemble_of_owned member (Origin.owns_append family source fragment)]
  exact last.get?_setAll base

/-- What is laid over a name is what assembly shows. -/
theorem Overlaid.get?_assemble (overlaid : Overlaid entry base sanitize name result)
    : (assemble entry base sanitize).get? name = result := by
  cases overlaid with
  | logName | resourceKind | severity => exact get?_assemble_fact (by simp [entryOrigins])
  | resourceLabel last | entryLabel last =>
      exact get?_assemble_family (by simp [entryOrigins]) last
  | base unfixed noResourceLabel noEntryLabel =>
      rw [assemble_eq_setAll]
      exact LabelSet.get?_setAll_of_unwritten
        (entryWrites_ne unfixed noResourceLabel noEntryLabel)

/-- Something is laid over every name, or else the base shows through. -/
theorem exists_overlaid (entry : Entry) (base : LabelSet) (sanitize : String → String)
    (name : String)
    : ∃ result, Overlaid entry base sanitize name result := by
  cases inLabels : (familyWrites entryFamily sanitize entry.labels).reverse.lookup name with
  | some value =>
      obtain ⟨key, rfl, last⟩ := lastCleaned_of_lookup inLabels
      exact ⟨_, .entryLabel last⟩
  | none =>
      cases inResource
        : (familyWrites resourceFamily sanitize entry.resource.labels).reverse.lookup name with
      | some value =>
          obtain ⟨key, rfl, last⟩ := lastCleaned_of_lookup inResource
          exact ⟨_, .resourceLabel last⟩
      | none =>
          by_cases fixed : name ∈ [logName, resourceKind, severity]
          · simp only [List.mem_cons, List.not_mem_nil, or_false] at fixed
            rcases fixed with rfl | rfl | rfl
            · exact ⟨_, .logName⟩
            · exact ⟨_, .resourceKind⟩
            · exact ⟨_, .severity⟩
          · exact ⟨_, .base fixed (no_key_of_lookup inResource) (no_key_of_lookup inLabels)⟩

/-- For every entry, base and cleaning of keys, assembly shows under each name exactly what is laid
over it: the fact of that name, the value of the last key of a family, or the label of the base; and
of a fact or value that is empty, no label at all.
-/
theorem assemble_overlays (entry : Entry) (base : LabelSet) (sanitize : String → String)
    (name : String) (result : Option String)
    : (assemble entry base sanitize).get? name = result
      ↔ Overlaid entry base sanitize name result := by
  constructor
  · intro shows
    obtain ⟨other, overlaid⟩ := exists_overlaid entry base sanitize name
    exact shows ▸ overlaid.get?_assemble ▸ overlaid
  · exact Overlaid.get?_assemble

end LogIntake.InternalLabels
