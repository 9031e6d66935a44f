import LogIntake.Proofs.Outcome
import LogIntake.Relabel.Apply

/-! Compilation of rules, read backwards. A compiled rule is the rule it was made from together
with its anchored pattern, and a compiled list has the rules of the list it was made from.
-/

namespace LogIntake.Relabel

/-- A rule without faults has none in its target. -/
theorem Rule.targetFault?_eq_none {rule : Rule} (sound : rule.fault? = none)
    : rule.targetFault? = none := by
  unfold fault? at sound
  split at sound
  case isTrue => cases sound
  case isFalse => exact (Option.or_eq_none_iff.mp sound).1

/-- A rule compiles exactly if nothing is wrong with its fields and its anchored pattern
compiles; both are kept.
-/
theorem CompiledRule.compile_eq_ok_iff {index : Nat} {rule : Rule} {compiled : CompiledRule}
    : CompiledRule.compile index rule = .ok compiled
      ↔ rule.fault? = none
        ∧ Regex.compile (anchored rule.regex) = .ok compiled.regex
        ∧ compiled.rule = rule := by
  obtain ⟨kept, regex⟩ := compiled
  unfold CompiledRule.compile
  cases rule.fault? with
  | some cause => simp
  | none =>
      cases Regex.compile (anchored rule.regex) with
      | error cause => simp
      | ok pattern => simp [and_comm, eq_comm]

theorem Rules.rules_of_compileFrom {index : Nat} {rules : List Rule} {compiled : Rules}
    (accepted : Rules.compileFrom index rules = .ok compiled)
    : compiled.map CompiledRule.rule = rules := by
  induction rules generalizing index compiled with
  | nil =>
      cases accepted
      rfl
  | cons rule rest ih =>
      rw [Rules.compileFrom] at accepted
      obtain ⟨first, firstAccepted, remaining⟩ := bind_eq_ok_iff.mp accepted
      obtain ⟨others, othersAccepted, returned⟩ := bind_eq_ok_iff.mp remaining
      cases returned
      rw [List.map_cons, ih othersAccepted,
        (CompiledRule.compile_eq_ok_iff.mp firstAccepted).2.2]

/-- Every compiled rule of a list comes from its own rule at some position. -/
theorem Rules.compile_of_mem {index : Nat} {rules : List Rule} {compiled : Rules}
    (accepted : Rules.compileFrom index rules = .ok compiled) {rule : CompiledRule}
    (member : rule ∈ compiled)
    : ∃ position, CompiledRule.compile position rule.rule = .ok rule := by
  induction rules generalizing index compiled with
  | nil =>
      cases accepted
      cases member
  | cons first rest ih =>
      rw [Rules.compileFrom] at accepted
      obtain ⟨head, headAccepted, remaining⟩ := bind_eq_ok_iff.mp accepted
      obtain ⟨others, othersAccepted, returned⟩ := bind_eq_ok_iff.mp remaining
      cases returned
      rcases List.mem_cons.mp member with rfl | later
      · have same := (CompiledRule.compile_eq_ok_iff.mp headAccepted).2.2
        exact ⟨index, same ▸ headAccepted⟩
      · exact ih othersAccepted later

/-- A compiled rule of a list was configured. -/
theorem Rules.rule_mem_of_compile {rules : List Rule} {compiled : Rules}
    (accepted : Rules.compile rules = .ok compiled) {rule : CompiledRule}
    (member : rule ∈ compiled)
    : rule.rule ∈ rules := by
  rw [← rules_of_compileFrom accepted]
  exact List.mem_map_of_mem member

end LogIntake.Relabel
