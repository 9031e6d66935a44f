import LogIntake.InternalLabels
import LogIntake.Proofs.Label.NameGrammar
import LogIntake.Proofs.Label.SetLookup

/-! Assembly as a list of writes. The labels of an envelope and those of an entry are each laid
down by one list of writes in a fixed order, and every name that is written is reserved.
-/

namespace LogIntake.InternalLabels

open Label

/-- The writes of a family, in ascending order of the keys they come from. -/
def familyWrites (family : String) (sanitize : String → String) (source : NameMap)
    : List (String × String) :=
  source.entries.map fun entry => (family ++ sanitize entry.1, entry.2)

/-- The writes for an entry. -/
def entryWrites (entry : Entry) (sanitize : String → String) : List (String × String) :=
  [(logName, entry.logName), (resourceKind, entry.resource.kind), (severity, entry.severity)]
    ++ familyWrites resourceFamily sanitize entry.resource.labels
    ++ familyWrites entryFamily sanitize entry.labels

/-- The writes for an envelope. -/
def envelopeWrites (push : PushMessage) (sanitize : String → String)
    : List (String × String) :=
  [(messageId, push.message.messageId), (subscription, push.subscription)]
    ++ familyWrites attributeFamily sanitize push.message.attributes

/-- Assembly performs the writes for the entry on the base. -/
theorem assemble_eq_setAll (entry : Entry) (base : LabelSet) (sanitize : String → String)
    : assemble entry base sanitize = base.setAll (entryWrites entry sanitize) := by
  simp only [assemble, setFamily, entryWrites, familyWrites, LabelSet.setAll, List.foldl_append,
    List.foldl_cons, List.foldl_nil]

theorem ofPush_eq_setAll (push : PushMessage) (sanitize : String → String)
    : ofPush push sanitize = LabelSet.empty.setAll (envelopeWrites push sanitize) := by
  simp only [ofPush, setFamily, envelopeWrites, familyWrites, LabelSet.setAll,
    List.foldl_append, List.foldl_cons, List.foldl_nil]

/-- The fixed names and the names of the families. -/
def vocabulary : List String :=
  [logName, resourceKind, severity, resourceFamily, entryFamily, messageId, subscription,
    attributeFamily]

theorem vocabulary_reserved {name : String} (member : name ∈ vocabulary) : IsReserved name := by
  have internal : ∀ name ∈ vocabulary, isInternal name = true := by decide
  exact isInternal_iff.mp (internal name member)

theorem isReserved_append {family : String} (reserved : IsReserved family) (rest : String)
    : IsReserved (family ++ rest) := by
  unfold IsReserved at *
  rw [String.toList_append]
  exact reserved.trans (List.prefix_append _ _)

/-- A name that is written is a fixed name, or the name of a family followed by a cleaned key. -/
inductive IsWritten (sanitize : String → String) : String → Prop
  | fact {name} (known : name ∈ vocabulary) : IsWritten sanitize name
  | label {family} (known : family ∈ vocabulary) (key : String)
    : IsWritten sanitize (family ++ sanitize key)

theorem IsWritten.isReserved {sanitize : String → String} {name : String}
    (written : IsWritten sanitize name)
    : IsReserved name := by
  cases written with
  | fact known => exact vocabulary_reserved known
  | label known key => exact isReserved_append (vocabulary_reserved known) (sanitize key)

theorem familyWrites_written {family : String} (known : family ∈ vocabulary)
    (sanitize : String → String) (source : NameMap)
    : ∀ write ∈ familyWrites family sanitize source, IsWritten sanitize write.1 := by
  intro write member
  obtain ⟨entry, _, rfl⟩ := List.mem_map.mp member
  exact .label known entry.1

/-- The names of the writes for an entry. -/
theorem entryWrites_written (entry : Entry) (sanitize : String → String)
    : ∀ write ∈ entryWrites entry sanitize, IsWritten sanitize write.1 := by
  intro write member
  rcases List.mem_append.mp member with front | family
  · rcases List.mem_append.mp front with fixed | family
    · simp only [List.mem_cons, List.not_mem_nil, or_false] at fixed
      rcases fixed with rfl | rfl | rfl
      · exact .fact (by simp [vocabulary])
      · exact .fact (by simp [vocabulary])
      · exact .fact (by simp [vocabulary])
    · exact familyWrites_written (by simp [vocabulary]) sanitize _ write family
  · exact familyWrites_written (by simp [vocabulary]) sanitize _ write family

/-- The names of the writes for an envelope. -/
theorem envelopeWrites_written (push : PushMessage) (sanitize : String → String)
    : ∀ write ∈ envelopeWrites push sanitize, IsWritten sanitize write.1 := by
  intro write member
  rcases List.mem_append.mp member with fixed | family
  · simp only [List.mem_cons, List.not_mem_nil, or_false] at fixed
    rcases fixed with rfl | rfl
    · exact .fact (by simp [vocabulary])
    · exact .fact (by simp [vocabulary])
  · exact familyWrites_written (by simp [vocabulary]) sanitize _ write family

/-- The labels of an envelope have names that are written for it. -/
theorem isWritten_of_mem_ofPush {push : PushMessage} {sanitize : String → String} {name : String}
    (member : name ∈ (ofPush push sanitize).names)
    : IsWritten sanitize name := by
  obtain ⟨value, found⟩ := LabelSet.mem_names_iff.mp member
  rw [ofPush_eq_setAll] at found
  rcases LabelSet.get?_setAll_origin found with initial | written
  · cases initial
  · exact envelopeWrites_written push sanitize (name, value) written

/-- Assembly adds no names to the base but those that are written for the entry. -/
theorem isWritten_of_mem_assemble {entry : Entry} {base : LabelSet} {sanitize : String → String}
    {name : String} (member : name ∈ (assemble entry base sanitize).names)
    : name ∈ base.names ∨ IsWritten sanitize name := by
  obtain ⟨value, found⟩ := LabelSet.mem_names_iff.mp member
  rw [assemble_eq_setAll] at found
  rcases LabelSet.get?_setAll_origin found with initial | written
  · exact .inl (LabelSet.mem_names_iff.mpr ⟨value, initial⟩)
  · exact .inr (entryWrites_written entry sanitize (name, value) written)

/-- The labels of an envelope have reserved names. -/
theorem isReserved_of_ofPush_get? {push : PushMessage} {sanitize : String → String}
    {name value : String} (found : (ofPush push sanitize).get? name = some value)
    : IsReserved name :=
  (isWritten_of_mem_ofPush (LabelSet.mem_names_iff.mpr ⟨value, found⟩)).isReserved

/-- Over reserved labels, assembly leaves reserved labels only. -/
theorem isReserved_of_mem_assemble {entry : Entry} {base : LabelSet} {sanitize : String → String}
    (reserved : ∀ name ∈ base.names, IsReserved name)
    : ∀ name ∈ (assemble entry base sanitize).names, IsReserved name := by
  intro name member
  rcases isWritten_of_mem_assemble member with initial | written
  · exact reserved name initial
  · exact written.isReserved

end LogIntake.InternalLabels
