import LogIntake.Proofs.Label.NameGrammar
import LogIntake.Proofs.Relabel.Agreement
import LogIntake.Proofs.Relabel.Mapping

/-! What each action leaves alone in a set that it keeps. Tests change nothing, writing actions
change one label, filters only take labels away, and mapping only adds names.
-/

namespace LogIntake

open Label

/-- One label has the given value afterwards, where the empty one stands for no label at all, and
every other label is as it was before.
-/
structure LabelSet.WrittenAt (labels : LabelSet) (name value : String) (kept : LabelSet) : Prop where
  written : kept.value name = value
  others : AgreeOutside (· = name) labels kept

theorem LabelSet.writtenAt_set (labels : LabelSet) (name value : String)
    : labels.WrittenAt name value (labels.set name value) where
  written := by
    by_cases empty : value = "" <;> simp [LabelSet.value, empty]
  others := by
    intro other different
    rw [get?_set, if_neg different]

/-- A filter on names leaves exactly the labels whose names pass, with their values. -/
theorem LabelSet.get?_filter_names_eq_some_iff {labels : LabelSet} {keep : String → Bool}
    {name value : String}
    : (labels.filter fun name _ => keep name).get? name = some value
      ↔ labels.get? name = some value ∧ keep name = true := by
  rw [get?_filter, Option.filter_eq_some_iff]

namespace Relabel.CompiledRule

/-- The text of a template for a match of the rule's pattern. -/
def expansion (compiled : CompiledRule) (found : Regex.Match) (template : String) : String :=
  String.ofList (compiled.regex.expand found template.toList)

/-- A replacement writes the label that its target expands to if the source value matches and the
target comes out as a label name, and changes nothing otherwise.
-/
def ReplaceFrame (compiled : CompiledRule) (labels kept : LabelSet) : Prop :=
  match compiled.regex.find (compiled.rule.sourceValue labels).toList with
  | none => kept = labels
  | some found =>
      let target := compiled.expansion found compiled.rule.targetLabel
      if IsLabelName target then
        labels.WrittenAt target (compiled.expansion found compiled.rule.replacement) kept
      else kept = labels

/-- What the action of the rule changes in a set that it keeps, and thereby what it leaves alone. -/
def Frame (compiled : CompiledRule) (labels kept : LabelSet) : Prop :=
  let rule := compiled.rule
  let value := rule.sourceValue labels
  match rule.action with
  | .keep | .drop | .keepEqual | .dropEqual => kept = labels
  | .replace => compiled.ReplaceFrame labels kept
  | .lowercase => labels.WrittenAt rule.targetLabel (Unicode.toLowercase value) kept
  | .uppercase => labels.WrittenAt rule.targetLabel (Unicode.toUppercase value) kept
  | .hashMod => labels.WrittenAt rule.targetLabel (toString (shard value rule.modulus)) kept
  | .labelDrop =>
      ∀ name value,
        kept.get? name = some value
        ↔ labels.get? name = some value ∧ compiled.isMatch name = false
  | .labelKeep =>
      ∀ name value,
        kept.get? name = some value
        ↔ labels.get? name = some value ∧ compiled.isMatch name = true
  | .labelMap =>
      ∀ name,
        name ∈ kept.names ↔ name ∈ labels.names ∨ ∃ source, compiled.Copies labels source name

variable {compiled : CompiledRule} {labels kept : LabelSet}

theorem replaceFrame_replace (compiled : CompiledRule) (labels : LabelSet)
    : compiled.ReplaceFrame labels
        (compiled.replace labels (compiled.rule.sourceValue labels)) := by
  unfold ReplaceFrame replace
  cases compiled.regex.find (compiled.rule.sourceValue labels).toList with
  | none => rfl
  | some found =>
      dsimp only
      by_cases valid : IsLabelName (compiled.expansion found compiled.rule.targetLabel)
      · rw [if_pos valid]
        have passed := isValidName_iff.mpr valid
        unfold expansion at passed ⊢
        rw [if_pos passed]
        exact labels.writtenAt_set _ _
      · rw [if_neg valid]
        have failed := mt isValidName_iff.mp valid
        exact if_neg failed

/-- A rule that keeps the record changes in the set what its action may change, and leaves no empty
value behind.
-/
theorem apply_frame (applied : compiled.apply labels = some kept)
    : compiled.Frame labels kept ∧ ∀ name, kept.get? name ≠ some "" := by
  refine ⟨?_, fun name found => LabelSet.get?_ne_empty found rfl⟩
  unfold apply at applied
  unfold Frame
  cases action : compiled.rule.action with
  | drop | dropEqual =>
      simp only [action, Option.ite_none_left_eq_some, Option.some.injEq] at applied ⊢
      exact applied.2.symm
  | keep | keepEqual =>
      simp only [action, Option.ite_none_right_eq_some, Option.some.injEq] at applied ⊢
      exact applied.2.symm
  | replace =>
      simp only [action, Option.some.injEq] at applied ⊢
      exact applied ▸ replaceFrame_replace compiled labels
  | lowercase | uppercase | hashMod =>
      simp only [action, Option.some.injEq] at applied ⊢
      exact applied ▸ labels.writtenAt_set _ _
  | labelDrop =>
      simp only [action, Option.some.injEq] at applied ⊢
      intro name value
      rw [← applied, LabelSet.get?_filter_names_eq_some_iff, Bool.not_eq_true']
  | labelKeep =>
      simp only [action, Option.some.injEq] at applied ⊢
      intro name value
      rw [← applied, LabelSet.get?_filter_names_eq_some_iff]
  | labelMap =>
      simp only [action, Option.some.injEq] at applied ⊢
      exact applied ▸ fun name => mem_names_setAll_copies

/-- A replacement whose target is a template writes the label that the severity names, and the other
labels are as before.
-/
theorem apply_frame_templated_target
    : let rule : Rule :=
        {
          Rule.default with
          sourceLabels := ["sev", "zone"]
          regex := "(.*);(.*)"
          targetLabel := "zone_$1"
          replacement := "$2"
        }
      let labels := LabelSet.ofList [("sev", "err"), ("zone", "b")]
      ∃ compiled kept,
        CompiledRule.compile 0 rule = .ok compiled
        ∧ compiled.apply labels = some kept
        ∧ kept.toList = [("sev", "err"), ("zone", "b"), ("zone_err", "b")]
        ∧ compiled.Frame labels kept
        ∧ ∀ name, kept.get? name ≠ some "" := by
  intro rule labels
  have written
      : (CompiledRule.compile 0 rule).toOption.any
          (fun compiled => (compiled.apply labels).any
            fun kept => kept.toList = [("sev", "err"), ("zone", "b"), ("zone_err", "b")])
        = true := by
    decide +kernel
  obtain ⟨compiled, compiles, holds⟩ := any_toOption_iff.mp written
  rw [Option.any_eq_true] at holds
  obtain ⟨kept, applied, entries⟩ := holds
  obtain ⟨frame, nonempty⟩ := apply_frame applied
  exact ⟨compiled, kept, compiles, applied, of_decide_eq_true entries, frame, nonempty⟩

end Relabel.CompiledRule

end LogIntake
