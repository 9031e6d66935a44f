import LogIntake.Proofs.Label.SetLookup
import LogIntake.Proofs.Outcome
import LogIntake.Proofs.Text.ByteOrder
import LogIntake.Relabel.Apply

/-! Copies of labels under mapped names. All copies are made of the set as it was before the rule,
in ascending order of the names that they come from, so of several copies under one name the one
that comes from the last of these names stays.
-/

namespace LogIntake

namespace Relabel.CompiledRule

/-- The rule copies a label of the set under a name. -/
structure Copies (compiled : CompiledRule) (labels : LabelSet) (source name : String) : Prop where
  present : source ∈ labels.names
  matched : compiled.isMatch source = true
  mapped : compiled.mappedName source = name

/-- Of the labels that the rule copies under a name, this one has the last name in the order of
bytes.
-/
structure CopiesLast (compiled : CompiledRule) (labels : LabelSet) (source name : String) : Prop
    extends compiled.Copies labels source name where
  last
    : ∀ other,
        compiled.Copies labels other name → other = source ∨ Text.Utf8.BytesBefore other source

variable {compiled : CompiledRule} {labels : LabelSet} {source name value : String}

theorem mem_matching_iff
    : (source, value) ∈ (labels.filter fun name _ => compiled.isMatch name).toList
      ↔ labels.get? source = some value ∧ compiled.isMatch source = true := by
  rw [LabelSet.mem_toList_iff, LabelSet.get?_filter, Option.filter_eq_some_iff]

/-- A copy that stays is the copy of the last label. -/
theorem copiesLast_of_lookup (found : (compiled.copies labels).reverse.lookup name = some value)
    : ∃ source, compiled.CopiesLast labels source name ∧ labels.get? source = some value := by
  obtain ⟨source, member, mapped, last⟩ := lookup_reverse_renamed compiled.mappedName
    (labels.filter fun name _ => compiled.isMatch name).map.ascending found
  obtain ⟨own, matched⟩ := mem_matching_iff.mp member
  refine ⟨source, ⟨⟨LabelSet.mem_names_iff.mpr ⟨value, own⟩, matched, mapped⟩, ?_⟩, own⟩
  intro other copied
  obtain ⟨otherValue, otherFound⟩ := LabelSet.mem_names_iff.mp copied.present
  have entry := mem_matching_iff.mpr ⟨otherFound, copied.matched⟩
  exact (last _ entry copied.mapped).imp_right Text.Utf8.bytesBefore_iff_lt.mpr

/-- A name without a copy has no label that is copied under it. -/
theorem not_copies_of_lookup (absent : (compiled.copies labels).reverse.lookup name = none)
    (source : String)
    : ¬compiled.Copies labels source name := by
  intro copied
  obtain ⟨value, found⟩ := LabelSet.mem_names_iff.mp copied.present
  have entry := mem_matching_iff.mpr ⟨found, copied.matched⟩
  have member : (name, value) ∈ (compiled.copies labels).reverse :=
    List.mem_reverse.mpr (List.mem_map.mpr ⟨_, entry, by rw [copied.mapped]⟩)
  simpa using List.lookup_eq_none_iff.mp absent _ member

/-- After the copies a name has the value that the last label copied under it had before, or its own
value if no label is copied under it.
-/
theorem get?_setAll_copies (compiled : CompiledRule) (labels : LabelSet) (name : String)
    : (∃ source,
        compiled.CopiesLast labels source name
        ∧ (labels.setAll (compiled.copies labels)).get? name = labels.get? source)
      ∨ (∀ source, ¬compiled.Copies labels source name)
        ∧ (labels.setAll (compiled.copies labels)).get? name = labels.get? name := by
  rw [LabelSet.get?_setAll]
  cases last : (compiled.copies labels).reverse.lookup name with
  | none => exact .inr ⟨not_copies_of_lookup last, rfl⟩
  | some value =>
      obtain ⟨source, copied, found⟩ := copiesLast_of_lookup last
      refine .inl ⟨source, copied, ?_⟩
      rw [found]
      exact if_neg (LabelSet.get?_ne_empty found)

/-- The copies add the names that labels are copied under, and remove none. -/
theorem mem_names_setAll_copies
    : name ∈ (labels.setAll (compiled.copies labels)).names
      ↔ name ∈ labels.names ∨ ∃ source, compiled.Copies labels source name := by
  rw [LabelSet.mem_names_iff, LabelSet.mem_names_iff]
  rcases get?_setAll_copies compiled labels name with ⟨source, copied, same⟩ | ⟨uncopied, same⟩
  · rw [same]
    have present := LabelSet.mem_names_iff.mp copied.present
    exact ⟨fun _ => .inr ⟨source, copied.toCopies⟩, fun _ => present⟩
  · rw [same]
    exact ⟨.inl, fun either => either.resolve_right fun ⟨source, copied⟩ => uncopied source copied⟩

/-- A mapping rule keeps the record and all names, and every name has the value that the last of the
labels copied under it had before the rule, or its own value if there is none.
-/
theorem labelMap_copies_snapshot (action : compiled.rule.action = .labelMap) (labels : LabelSet)
    : ∃ kept,
        compiled.apply labels = some kept
        ∧ (∀ name ∈ labels.names, name ∈ kept.names)
        ∧ ∀ name,
            (∃ source,
              compiled.CopiesLast labels source name ∧ kept.get? name = labels.get? source)
            ∨ (∀ source, ¬compiled.Copies labels source name)
              ∧ kept.get? name = labels.get? name := by
  refine ⟨labels.setAll (compiled.copies labels), by rw [apply, action], ?_, ?_⟩
  · exact fun name present => mem_names_setAll_copies.mpr (.inl present)
  · exact get?_setAll_copies compiled labels

/-- Three labels are copied under the name of one of them, and the last of the three wins. -/
theorem labelMap_copies_snapshot_collision
    : let rule : Rule :=
        {
          Rule.default with
          regex := "(a_|b_|)(.*)"
          replacement := "b_$2"
          action := .labelMap
        }
      let labels := LabelSet.ofList [("a_x", "1"), ("b_x", "2"), ("x", "3")]
      ∃ compiled kept,
        CompiledRule.compile 0 rule = .ok compiled
        ∧ compiled.rule.action = .labelMap
        ∧ compiled.apply labels = some kept
        ∧ kept.toList = [("a_x", "1"), ("b_x", "3"), ("x", "3")]
        ∧ ∀ name ∈ labels.names, name ∈ kept.names := by
  intro rule labels
  have mapped
      : (CompiledRule.compile 0 rule).toOption.any
          (fun compiled => compiled.rule.action = .labelMap
            && (compiled.apply labels).any
              fun kept => kept.toList = [("a_x", "1"), ("b_x", "3"), ("x", "3")])
        = true := by
    decide +kernel
  obtain ⟨compiled, compiles, holds⟩ := any_toOption_iff.mp mapped
  simp only [Bool.and_eq_true, decide_eq_true_eq, Option.any_eq_true] at holds
  obtain ⟨action, kept, applied, entries⟩ := holds
  obtain ⟨_, again, present, _⟩ := labelMap_copies_snapshot action labels
  cases applied.symm.trans again
  exact ⟨compiled, kept, compiles, action, applied, entries, present⟩

end Relabel.CompiledRule

end LogIntake
