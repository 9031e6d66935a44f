import LogIntake.Proofs.Label.NameGrammar
import LogIntake.Proofs.Relabel.Composition
import LogIntake.Proofs.Relabel.Effects

/-! The names that rules leave behind. Every writing action but one names its label by a valid
name, either because the target has been checked or because a target that comes out malformed is
skipped. The target of a shard is neither checked nor skipped, and its name goes into the set as it
stands.
-/

namespace LogIntake

open Label

/-- All names of the set are label names. -/
def LabelSet.WellNamed (labels : LabelSet) : Prop :=
  ∀ name ∈ labels.names, IsLabelName name

namespace Relabel

/-- The rules leave label names only, if they keep the record and find label names only. -/
def Rules.KeepWellNamed (rules : Rules) : Prop :=
  ∀ labels kept, labels.WellNamed → rules.apply labels = some kept → kept.WellNamed

/-- The target of a rule that changes the case of a text has been checked. -/
theorem Rule.isValidName_of_fault?_eq_none {rule : Rule} (sound : rule.fault? = none)
    (action : rule.action ∈ [Action.lowercase, .uppercase])
    : isValidName rule.targetLabel = true := by
  have target := targetFault?_eq_none sound
  simp only [List.mem_cons, List.not_mem_nil, or_false] at action
  rcases action with lower | upper
  · simpa [targetFault?, lower] using target
  · simpa [targetFault?, upper] using target

/-- What a rule without faults writes has a label name, or is the target of a shard. -/
theorem CompiledRule.Targets.isLabelName_or_shard {compiled : CompiledRule} {labels : LabelSet}
    {name : String} (target : compiled.Targets labels name)
    (sound : compiled.rule.fault? = none)
    : IsLabelName name
      ∨ compiled.rule.action = .hashMod ∧ compiled.rule.targetLabel = name := by
  cases target with
  | expanded _ _ valid => exact .inl (isValidName_iff.mp valid)
  | fixed action =>
      by_cases shard : compiled.rule.action = .hashMod
      · exact .inr ⟨shard, rfl⟩
      · have changesCase : compiled.rule.action ∈ [Action.lowercase, .uppercase] := by
          simpa [shard] using action
        exact .inl (isValidName_iff.mp (Rule.isValidName_of_fault?_eq_none sound changesCase))

/-- A rule that stores a shard leaves a label under its target, whatever the set. -/
theorem CompiledRule.mem_names_of_shard {compiled : CompiledRule}
    (action : compiled.rule.action = .hashMod) (labels : LabelSet)
    : ∃ kept, compiled.apply labels = some kept ∧ compiled.rule.targetLabel ∈ kept.names := by
  refine ⟨_, by rw [apply, action], ?_⟩
  rw [LabelSet.mem_names_iff]
  exact ⟨toString (shard (compiled.rule.sourceValue labels) compiled.rule.modulus), by simp⟩

/-- What a list of compiled rules leaves has label names or the targets of shards for names. -/
theorem Rules.isLabelName_or_shard {rules : List Rule} {compiled : Rules}
    (accepted : Rules.compile rules = .ok compiled)
    (unmapped : ∀ rule ∈ rules, rule.action ≠ .labelMap)
    {labels kept : LabelSet} (initial : labels.WellNamed)
    (applied : compiled.apply labels = some kept)
    : ∀ name ∈ kept.names,
        IsLabelName name ∨ ∃ rule ∈ rules, rule.action = .hashMod ∧ rule.targetLabel = name := by
  refine Rules.apply_names ?_ ?_ (fun name member => .inl (initial name member)) applied
  · intro step member
    exact unmapped step.rule (Rules.rule_mem_of_compile accepted member)
  · intro step member _ name target
    obtain ⟨_, compiles⟩ := Rules.compile_of_mem accepted member
    have sound := (CompiledRule.compile_eq_ok_iff.mp compiles).1
    refine (target.isLabelName_or_shard sound).imp_right ?_
    intro shard
    exact ⟨step.rule, Rules.rule_mem_of_compile accepted member, shard⟩

/-- The names that a list of compiled rules leaves are label names or targets of shards. The list
and every selection of its rules keep label names among themselves exactly if all targets of shards
are label names. Witness: on the empty set, a rule that stores a shard leaves its target alone.
-/
theorem keepWellNamed_iff_shard_targets {rules : List Rule} {compiled : Rules}
    (accepted : Rules.compile rules = .ok compiled)
    (unmapped : ∀ rule ∈ rules, rule.action ≠ .labelMap)
    : (∀ labels kept,
        labels.WellNamed
        → compiled.apply labels = some kept
        → ∀ name ∈ kept.names,
            IsLabelName name ∨ ∃ rule ∈ rules, rule.action = .hashMod ∧ rule.targetLabel = name)
      ∧ ((∀ selection selected,
          selection.Sublist rules
          → Rules.compile selection = .ok selected
          → selected.KeepWellNamed)
        ↔ ∀ rule ∈ rules, rule.action = .hashMod → IsLabelName rule.targetLabel) := by
  refine ⟨fun labels kept => Rules.isLabelName_or_shard accepted unmapped, ?_⟩
  constructor
  · intro keeps rule member shard
    obtain ⟨selected, alone⟩ := (Rules.compileFrom_isOk_iff 0).mp ⟨compiled, accepted⟩ rule member
    have keep := keeps [rule] selected (List.singleton_sublist.mpr member) alone
    rw [Rules.compile_singleton] at alone
    cases compiles : CompiledRule.compile 0 rule with
    | error fault =>
        rw [compiles] at alone
        cases alone
    | ok step =>
        rw [compiles] at alone
        cases alone
        obtain ⟨_, _, same⟩ := CompiledRule.compile_eq_ok_iff.mp compiles
        obtain ⟨kept, applied, present⟩ :=
          CompiledRule.mem_names_of_shard (same ▸ shard) LabelSet.empty
        have whole : Rules.apply [step] LabelSet.empty = some kept := by
          rw [← applied]
          exact bind_pure (step.apply LabelSet.empty)
        have initial : LabelSet.empty.WellNamed := fun name member => absurd member List.not_mem_nil
        exact same ▸ keep LabelSet.empty kept initial whole _ present
  · intro checked selection selected part selects labels kept initial applied name member
    have unmappedPart : ∀ rule ∈ selection, rule.action ≠ .labelMap :=
      fun rule chosen => unmapped rule (part.mem chosen)
    rcases Rules.isLabelName_or_shard selects unmappedPart initial applied name member with
      valid | ⟨rule, chosen, shard, rfl⟩
    · exact valid
    · exact checked rule (part.mem chosen) shard

/-- A shard under a label name followed by a text in upper case keeps label names. -/
theorem keepWellNamed_iff_shard_targets_level
    : let shard : Rule :=
        {
          Rule.default with
          sourceLabels := ["v"]
          modulus := 4
          targetLabel := "shard"
          action := .hashMod
        }
      let level : Rule :=
        { Rule.default with sourceLabels := ["v"], targetLabel := "level", action := .uppercase }
      ∃ compiled,
        Rules.compile [shard, level] = .ok compiled
        ∧ (∀ rule ∈ [shard, level], rule.action ≠ .labelMap)
        ∧ compiled.KeepWellNamed := by
  intro shard level
  have accepted : (Rules.compile [shard, level]).toOption.isSome = true := by decide +kernel
  have unmapped : ∀ rule ∈ [shard, level], rule.action ≠ .labelMap := by decide
  have targets : ∀ rule ∈ [shard, level], isValidName rule.targetLabel = true := by decide
  cases compilation : Rules.compile [shard, level] with
  | error fault => simp [compilation, Except.toOption] at accepted
  | ok compiled =>
      have keeps := (keepWellNamed_iff_shard_targets compilation unmapped).2.mpr
        fun rule member _ => isValidName_iff.mp (targets rule member)
      exact ⟨compiled, rfl, unmapped, keeps _ compiled (List.Sublist.refl _) compilation⟩

/-- The target of a shard is no label name here, and the set has a label of that name afterwards. -/
theorem malformed_shard_target_is_written
    : ¬ ∀ (rules : List Rule) (compiled : Rules),
          Rules.compile rules = .ok compiled
          → (∀ rule ∈ rules, rule.action ≠ .labelMap)
          → compiled.KeepWellNamed := by
  intro keep
  let rule : Rule :=
    {
      Rule.default with
      sourceLabels := ["v"]
      modulus := 8
      targetLabel := "a-b"
      action := .hashMod
    }
  let labels := LabelSet.empty.set "v" "x"
  have written
      : (Rules.compile [rule]).toOption.any
          (fun compiled => (compiled.apply labels).any fun kept => kept.names = ["a-b", "v"])
        = true := by
    decide +kernel
  have initial : labels.WellNamed := by
    intro name member
    have names : ∀ name ∈ labels.names, isValidName name = true := by decide +kernel
    exact isValidName_iff.mp (names name member)
  have malformed : ¬ IsLabelName "a-b" := by
    rw [← isValidName_iff]
    decide
  cases compilation : Rules.compile [rule] with
  | error fault => simp [compilation, Except.toOption] at written
  | ok compiled =>
      rw [compilation, Except.toOption, Option.any_some, Option.any_eq_true] at written
      obtain ⟨kept, applied, names⟩ := written
      have wellNamed :=
        keep [rule] compiled compilation (by simp [rule]) labels kept initial applied
      exact malformed (wellNamed "a-b" (by simp [of_decide_eq_true names]))

end Relabel

end LogIntake
