import LogIntake.Proofs.Label.SetLookup
import LogIntake.Relabel.Apply

/-! What a rule can do to a label set. A rule that keeps the record leaves the set alone, writes
the one label that it targets, adds copies of labels, or removes labels. Whatever holds of all
names of a set and of all targets of the rules therefore holds of all names that they leave.
-/

namespace LogIntake.Relabel

namespace CompiledRule

variable {compiled : CompiledRule} {labels kept : LabelSet}

/-- The name that the rule writes when it works on a set: for a replacement what its target
expands to, if that is a valid name, and for the other writing actions the target as it stands.
-/
inductive Targets (compiled : CompiledRule) (labels : LabelSet) : String → Prop
  | expanded {found}
    (action : compiled.rule.action = .replace)
    (matched
      : compiled.regex.find (compiled.rule.sourceValue labels).toList = some found)
    (valid
      : Label.isValidName
            (String.ofList (compiled.regex.expand found compiled.rule.targetLabel.toList))
          = true)
    : Targets compiled labels
        (String.ofList (compiled.regex.expand found compiled.rule.targetLabel.toList))
  | fixed (action : compiled.rule.action ∈ [Action.lowercase, .uppercase, .hashMod])
    : Targets compiled labels compiled.rule.targetLabel

/-- What a rule that keeps the record leaves of a set, by the kinds of its actions. -/
inductive Effect (compiled : CompiledRule) (labels : LabelSet) : LabelSet → Prop
  | unchanged
    (action : compiled.rule.action ∈ [Action.keep, .drop, .keepEqual, .dropEqual, .replace])
    : Effect compiled labels labels
  | written {name} (value : String) (target : compiled.Targets labels name)
    : Effect compiled labels (labels.set name value)
  | copied (action : compiled.rule.action = .labelMap)
    : Effect compiled labels (labels.setAll (compiled.copies labels))
  | filtered (keep : String → Bool)
    (action : compiled.rule.action ∈ [Action.labelDrop, .labelKeep])
    : Effect compiled labels (labels.filter fun name _ => keep name)

theorem replace_effect (action : compiled.rule.action = .replace)
    : compiled.Effect labels (compiled.replace labels (compiled.rule.sourceValue labels)) := by
  unfold replace
  split
  case h_1 => exact .unchanged (by simp [action])
  case h_2 found matched =>
    dsimp only
    split
    case isTrue valid => exact .written _ (.expanded action matched valid)
    case isFalse => exact .unchanged (by simp [action])

/-- A rule that keeps the record has one of the effects, by cases on its action. -/
theorem apply_effect (applied : compiled.apply labels = some kept)
    : compiled.Effect labels kept := by
  unfold apply at applied
  cases action : compiled.rule.action with
  | drop | dropEqual =>
      simp only [action, Option.ite_none_left_eq_some, Option.some.injEq] at applied
      exact applied.2 ▸ .unchanged (by simp [action])
  | keep | keepEqual =>
      simp only [action, Option.ite_none_right_eq_some, Option.some.injEq] at applied
      exact applied.2 ▸ .unchanged (by simp [action])
  | replace =>
      simp only [action, Option.some.injEq] at applied
      exact applied ▸ replace_effect action
  | lowercase | uppercase | hashMod =>
      simp only [action, Option.some.injEq] at applied
      exact applied ▸ .written _ (.fixed (by simp [action]))
  | labelMap =>
      simp only [action, Option.some.injEq] at applied
      exact applied ▸ .copied action
  | labelDrop | labelKeep =>
      simp only [action, Option.some.injEq] at applied
      exact applied ▸ .filtered _ (by simp [action])

/-- Without copies, every name that a rule leaves was there before or is its target. -/
theorem Effect.names (effect : compiled.Effect labels kept)
    (unmapped : compiled.rule.action ≠ .labelMap) {name : String} (member : name ∈ kept.names)
    : name ∈ labels.names ∨ compiled.Targets labels name := by
  cases effect with
  | unchanged => exact .inl member
  | written value target =>
      rcases LabelSet.mem_names_set member with rfl | before
      · exact .inr target
      · exact .inl before
  | copied action => exact absurd action unmapped
  | filtered => exact .inl (LabelSet.mem_names_filter member)

end CompiledRule

/-- What holds of all names of a set and of every target of the rules holds of all names that
the rules leave, by induction on the rules.
-/
theorem Rules.apply_names {holds : String → Prop} {rules : Rules} {labels kept : LabelSet}
    (unmapped : ∀ compiled ∈ rules, compiled.rule.action ≠ .labelMap)
    (targets
      : ∀ compiled ∈ rules, ∀ labels name, CompiledRule.Targets compiled labels name → holds name)
    (initial : ∀ name ∈ labels.names, holds name)
    (applied : rules.apply labels = some kept)
    : ∀ name ∈ kept.names, holds name := by
  induction rules generalizing labels with
  | nil =>
      cases applied
      exact initial
  | cons compiled rest ih =>
      obtain ⟨headUnmapped, tailUnmapped⟩ := List.forall_mem_cons.mp unmapped
      obtain ⟨headTargets, tailTargets⟩ := List.forall_mem_cons.mp targets
      obtain ⟨next, first, remaining⟩ := Option.bind_eq_some_iff.mp applied
      refine ih tailUnmapped tailTargets ?_ remaining
      intro name member
      rcases (CompiledRule.apply_effect first).names headUnmapped member with before | target
      · exact initial name before
      · exact headTargets labels name target

end LogIntake.Relabel
