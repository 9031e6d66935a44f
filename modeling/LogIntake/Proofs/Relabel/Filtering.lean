import LogIntake.Proofs.Relabel.Composition
import LogIntake.Proofs.Relabel.Frames

/-! Rules that only filter. Dropping and keeping labels by one pattern divide every set between
them. A list of such rules leaves the labels whose names pass each of the rules, so neither the
order of the rules nor their repetition makes a difference.
-/

namespace LogIntake

/-- Two filters in turn leave the labels that pass both. -/
theorem LabelSet.filter_filter (labels : LabelSet) (first second : String → String → Bool)
    : (labels.filter first).filter second
      = labels.filter fun name value => first name value && second name value := by
  apply ext_get?
  intro name
  simp only [get?_filter, Option.filter_filter]

/-- A filter that everything passes changes nothing. -/
theorem LabelSet.filter_true (labels : LabelSet) : (labels.filter fun _ _ => true) = labels := by
  apply ext_get?
  intro name
  rw [get?_filter]
  cases labels.get? name <;> rfl

/-- A filter on names keeps the lookups of the names that pass and no others. -/
theorem LabelSet.get?_filter_names (labels : LabelSet) (keep : String → Bool) (name : String)
    : (labels.filter fun name _ => keep name).get? name
      = if keep name then labels.get? name else none := by
  rw [get?_filter]
  cases keep name <;> cases labels.get? name <;> rfl

namespace Relabel

/-- The rule does nothing but filter labels by their names. -/
def Rule.Filters (rule : Rule) : Prop :=
  rule.action = .labelDrop ∨ rule.action = .labelKeep

namespace CompiledRule

/-- Whether a filtering rule lets labels of the name pass. -/
def passes (compiled : CompiledRule) (name : String) : Bool :=
  if compiled.rule.action = .labelDrop then !compiled.isMatch name else compiled.isMatch name

/-- A filtering rule keeps the record and leaves the labels that it lets pass. -/
theorem apply_of_filters {compiled : CompiledRule} (filters : compiled.rule.Filters)
    (labels : LabelSet)
    : compiled.apply labels = some (labels.filter fun name _ => compiled.passes name) := by
  rcases filters with dropping | keeping
  · simp only [apply, passes, dropping, if_true]
  · have other : Action.labelKeep ≠ .labelDrop := by decide
    simp only [apply, passes, keeping, if_neg other]

end CompiledRule

/-- Filtering rules keep the record and leave the labels that all of them let pass, by induction on
the rules.
-/
theorem Rules.apply_of_filters {rules : Rules} (filters : ∀ own ∈ rules, own.rule.Filters)
    (labels : LabelSet)
    : rules.apply labels
      = some (labels.filter fun name _ => rules.all fun own => own.passes name) := by
  induction rules generalizing labels with
  | nil => exact congrArg some labels.filter_true.symm
  | cons own rest ih =>
      obtain ⟨first, later⟩ := List.forall_mem_cons.mp filters
      have step : Rules.apply (own :: rest) labels = (own.apply labels).bind (Rules.apply rest) :=
        rfl
      rw [step, CompiledRule.apply_of_filters first, Option.bind_some, ih later,
        LabelSet.filter_filter]
      rfl

/-- A rule that compiles at one position compiles alike at every other, for the position shows up in
errors only.
-/
theorem CompiledRule.compile_anywhere {index : Nat} {rule : Rule} {compiled : CompiledRule}
    (alone : CompiledRule.compile index rule = .ok compiled) (other : Nat)
    : CompiledRule.compile other rule = .ok compiled :=
  compile_eq_ok_iff.mpr (compile_eq_ok_iff.mp alone)

/-- A single rule that filters leaves the labels that it lets pass, and its pattern is its own. -/
theorem Rules.apply_of_single_filter {rule : Rule} {compiled : Rules} (filters : rule.Filters)
    (accepted : Rules.compile [rule] = .ok compiled)
    : ∃ own : CompiledRule,
        own.rule = rule
        ∧ Regex.compile (anchored rule.regex) = .ok own.regex
        ∧ ∀ labels,
            compiled.apply labels = some (labels.filter fun name _ => own.passes name) := by
  rw [Rules.compile_singleton] at accepted
  cases alone : CompiledRule.compile 0 rule with
  | error fault => simp only [alone, Except.map, reduceCtorEq] at accepted
  | ok own =>
      simp only [alone, Except.map, Except.ok.injEq] at accepted
      obtain ⟨_, pattern, same⟩ := CompiledRule.compile_eq_ok_iff.mp alone
      refine ⟨own, same, pattern, ?_⟩
      intro labels
      subst accepted
      have single : ∀ other ∈ [own], other.rule.Filters := by
        simpa [same] using filters
      rw [Rules.apply_of_filters single]
      simp only [List.all_cons, List.all_nil, Bool.and_true]

/-- A list of rules compiles to exactly those that its rules compile to. -/
theorem Rules.mem_compile_iff {rules : List Rule} {compiled : Rules}
    (accepted : Rules.compile rules = .ok compiled) {own : CompiledRule}
    : own ∈ compiled ↔ own.rule ∈ rules ∧ CompiledRule.compile 0 own.rule = .ok own := by
  constructor
  · intro member
    obtain ⟨position, alone⟩ := Rules.compile_of_mem accepted member
    exact ⟨Rules.rule_mem_of_compile accepted member, CompiledRule.compile_anywhere alone 0⟩
  · intro present
    obtain ⟨configured, alone⟩ := present
    rw [← Rules.rules_of_compileFrom accepted] at configured
    obtain ⟨other, member, same⟩ := List.mem_map.mp configured
    obtain ⟨position, otherAlone⟩ := Rules.compile_of_mem accepted member
    rw [same] at otherAlone
    cases alone.symm.trans (CompiledRule.compile_anywhere otherAlone 0)
    exact member

/-- Lists of the same rules compile alike, to lists of the same rules again. -/
theorem Rules.compile_of_same {rules others : List Rule} {compiled : Rules}
    (accepted : Rules.compile rules = .ok compiled) (same : ∀ rule, rule ∈ others ↔ rule ∈ rules)
    : ∃ again,
        Rules.compile others = .ok again
        ∧ ∀ own, own ∈ again ↔ own ∈ compiled := by
  have each : ∀ rule ∈ others, rule.Compiles := by
    intro rule member
    exact (compileFrom_isOk_iff 0).mp ⟨compiled, accepted⟩ rule ((same rule).mp member)
  obtain ⟨again, acceptedAgain⟩ := (compileFrom_isOk_iff 0).mpr each
  refine ⟨again, acceptedAgain, ?_⟩
  intro own
  rw [mem_compile_iff acceptedAgain, mem_compile_iff accepted, same]

/-- What remains of a set under filtering rules depends on which rules there are. -/
theorem Rules.all_passes_congr {rules others : Rules} (same : ∀ own, own ∈ others ↔ own ∈ rules)
    (name : String)
    : (others.all fun own => own.passes name) = rules.all fun own => own.passes name := by
  rw [Bool.eq_iff_iff, List.all_eq_true, List.all_eq_true]
  simp only [same]

/-- A rule that drops and one that keeps by the same pattern compile to the same pattern, and every
label of a set remains behind exactly one of them, with its value: behind the one that keeps if the
pattern matches its name, and otherwise behind the one that drops. A list of such rules never drops
the record, and every list of the same rules, in any order and with any repetitions, compiles too
and leaves the same labels: those whose names pass each rule.
-/
theorem filters_divide_and_commute
    : (∀ (dropping keeping : Rule) (droppers keepers : Rules),
        dropping.action = .labelDrop
        → keeping.action = .labelKeep
        → keeping.regex = dropping.regex
        → Rules.compile [dropping] = .ok droppers
        → Rules.compile [keeping] = .ok keepers
        → ∃ pattern,
            Regex.compile (anchored dropping.regex) = .ok pattern
            ∧ ∀ labels,
                ∃ left kept,
                  droppers.apply labels = some left
                  ∧ keepers.apply labels = some kept
                  ∧ ∀ name,
                      if pattern.isMatch name.toList then
                        kept.get? name = labels.get? name ∧ left.get? name = none
                      else left.get? name = labels.get? name ∧ kept.get? name = none)
      ∧ ∀ (rules others : List Rule) (compiled : Rules),
          Rules.compile rules = .ok compiled
          → (∀ rule ∈ rules, rule.Filters)
          → (∀ rule, rule ∈ others ↔ rule ∈ rules)
          → ∃ again,
              Rules.compile others = .ok again
              ∧ ∀ labels,
                  ∃ kept,
                    compiled.apply labels = some kept
                    ∧ again.apply labels = some kept
                    ∧ ∀ name,
                        kept.get? name
                        = if ∀ own ∈ compiled, own.passes name then labels.get? name else none := by
  constructor
  · intro dropping keeping droppers keepers drops keeps sameRegex dropAccepted keepAccepted
    obtain ⟨dropper, dropOwn, dropPattern, dropApply⟩ :=
      Rules.apply_of_single_filter (.inl drops) dropAccepted
    obtain ⟨keeper, keepOwn, keepPattern, keepApply⟩ :=
      Rules.apply_of_single_filter (.inr keeps) keepAccepted
    rw [sameRegex] at keepPattern
    have samePattern : keeper.regex = dropper.regex :=
      Except.ok.inj (keepPattern.symm.trans dropPattern)
    have dropPasses (name : String) : dropper.passes name = !dropper.regex.isMatch name.toList := by
      rw [CompiledRule.passes, dropOwn, if_pos drops]
      rfl
    have keepPasses (name : String) : keeper.passes name = dropper.regex.isMatch name.toList := by
      rw [CompiledRule.passes, keepOwn, keeps, ← samePattern]
      rfl
    refine ⟨dropper.regex, dropPattern, ?_⟩
    intro labels
    refine ⟨_, _, dropApply labels, keepApply labels, ?_⟩
    intro name
    rw [LabelSet.get?_filter_names, LabelSet.get?_filter_names, dropPasses, keepPasses]
    cases dropper.regex.isMatch name.toList <;> simp
  · intro rules others compiled accepted filters same
    obtain ⟨again, acceptedAgain, sameAgain⟩ := Rules.compile_of_same accepted same
    have compiledFilters : ∀ own ∈ compiled, own.rule.Filters := by
      intro own member
      exact filters own.rule (Rules.rule_mem_of_compile accepted member)
    have againFilters : ∀ own ∈ again, own.rule.Filters := by
      intro own member
      exact compiledFilters own ((sameAgain own).mp member)
    refine ⟨again, acceptedAgain, ?_⟩
    intro labels
    refine ⟨_, Rules.apply_of_filters compiledFilters labels, ?_, ?_⟩
    · rw [Rules.apply_of_filters againFilters]
      simp only [Rules.all_passes_congr sameAgain]
    · intro name
      rw [LabelSet.get?_filter_names]
      simp only [List.all_eq_true]

/-- Dropping and keeping temporary labels divide a set of three, and of the rules that drop those
and keep identifiers a repetition in the other order leaves the same single label.
-/
theorem filters_divide_and_commute_identifiers
    : let dropping : Rule := { Rule.default with regex := "tmp_.*", action := .labelDrop }
      let keeping : Rule := { Rule.default with regex := "tmp_.*", action := .labelKeep }
      let identifiers : Rule := { Rule.default with regex := ".*_id", action := .labelKeep }
      let labels := LabelSet.ofList [("tmp_id", "1"), ("user_id", "2"), ("zone", "b")]
      (∃ droppers keepers left kept,
        Rules.compile [dropping] = .ok droppers
        ∧ Rules.compile [keeping] = .ok keepers
        ∧ droppers.apply labels = some left
        ∧ keepers.apply labels = some kept
        ∧ (kept.get? "tmp_id" = some "1" ∧ left.get? "tmp_id" = none)
        ∧ (left.get? "zone" = some "b" ∧ kept.get? "zone" = none))
      ∧ ∃ compiled again kept,
          Rules.compile [dropping, identifiers] = .ok compiled
          ∧ Rules.compile [identifiers, dropping, identifiers] = .ok again
          ∧ compiled.apply labels = some kept
          ∧ again.apply labels = some kept
          ∧ kept.toList = [("user_id", "2")] := by
  intro dropping keeping identifiers labels
  constructor
  · have accepted
        : (Rules.compile [dropping]).toOption.isSome = true
          ∧ (Rules.compile [keeping]).toOption.isSome = true := by
      decide +kernel
    have tells
        : (Regex.compile (anchored "tmp_.*")).toOption.all
            (fun pattern => pattern.isMatch "tmp_id".toList && !pattern.isMatch "zone".toList)
          = true := by
      decide +kernel
    cases dropCompiles : Rules.compile [dropping] with
    | error fault => simp [dropCompiles, Except.toOption] at accepted
    | ok droppers =>
        cases keepCompiles : Rules.compile [keeping] with
        | error fault => simp [keepCompiles, Except.toOption] at accepted
        | ok keepers =>
            obtain ⟨pattern, compiles, divided⟩ :=
              filters_divide_and_commute.1 dropping keeping droppers keepers rfl rfl rfl
                dropCompiles keepCompiles
            obtain ⟨left, kept, leftApplied, keptApplied, parts⟩ := divided labels
            have own : Regex.compile (anchored "tmp_.*") = .ok pattern := compiles
            simp only [own, Except.toOption, Option.all_some, Bool.and_eq_true,
              Bool.not_eq_true'] at tells
            have temporary := parts "tmp_id"
            have zone := parts "zone"
            rw [if_pos tells.1] at temporary
            rw [if_neg (Bool.eq_false_iff.mp tells.2)] at zone
            exact ⟨droppers, keepers, left, kept, rfl, rfl, leftApplied, keptApplied, temporary,
              zone⟩
  · have remains
        : (Rules.compile [dropping, identifiers]).toOption.any
            (fun compiled => (compiled.apply labels).any
              fun kept => kept.toList = [("user_id", "2")])
          = true := by
      decide +kernel
    obtain ⟨compiled, compiles, holds⟩ := any_toOption_iff.mp remains
    have filters : ∀ rule ∈ [dropping, identifiers], rule.Filters := by
      intro rule member
      rcases List.mem_pair.mp member with rfl | rfl
      · exact .inl rfl
      · exact .inr rfl
    have same (rule : Rule)
        : rule ∈ [identifiers, dropping, identifiers] ↔ rule ∈ [dropping, identifiers] := by
      simp only [List.mem_cons, List.not_mem_nil, or_false]
      tauto
    obtain ⟨again, compilesAgain, alike⟩ :=
      filters_divide_and_commute.2 _ _ compiled compiles filters same
    obtain ⟨kept, applied, appliedAgain, _⟩ := alike labels
    simp only [applied, Option.any_some, decide_eq_true_eq] at holds
    exact ⟨compiled, again, kept, compiles, compilesAgain, applied, appliedAgain, holds⟩

end Relabel

end LogIntake
