import LogIntake.Proofs.Label.SetLookup
import LogIntake.Relabel.Apply

/-! Label sets that differ on hidden names only. A rule that reads no hidden name treats both
alike: it drops both or leaves two sets that again differ on hidden names only. Rules may
write and remove hidden names, for that brings no difference to light.
-/

namespace LogIntake.LabelSet

variable {hidden : String → Prop} {left right : LabelSet}

/-- Both sets give every name that is not hidden the same lookup. -/
def AgreeOutside (hidden : String → Prop) (left right : LabelSet) : Prop :=
  ∀ name, ¬ hidden name → left.get? name = right.get? name

/-- The same write on both sides keeps agreement, also where it hits a hidden name. -/
theorem AgreeOutside.set (agree : AgreeOutside hidden left right) (name value : String)
    : AgreeOutside hidden (left.set name value) (right.set name value) := by
  intro key visible
  rw [get?_set, get?_set, agree key visible]

theorem AgreeOutside.setAll (agree : AgreeOutside hidden left right)
    (writes : List (String × String))
    : AgreeOutside hidden (left.setAll writes) (right.setAll writes) := by
  induction writes generalizing left right with
  | nil => exact agree
  | cons write rest ih => exact ih (agree.set write.1 write.2)

theorem AgreeOutside.filter (agree : AgreeOutside hidden left right)
    (keep : String → String → Bool)
    : AgreeOutside hidden (left.filter keep) (right.filter keep) := by
  intro key visible
  rw [get?_filter, get?_filter, agree key visible]

/-- A filter that removes all hidden names makes agreeing sets equal. -/
theorem AgreeOutside.filter_eq (agree : AgreeOutside hidden left right)
    {keep : String → String → Bool} (removed : ∀ name value, hidden name → keep name value = false)
    : left.filter keep = right.filter keep := by
  apply ext_get?
  intro name
  rw [get?_filter, get?_filter]
  by_cases concealed : hidden name
  · have none_of (found : Option String) : found.filter (keep name) = none := by
      apply Option.filter_eq_none_iff.mpr
      intro value _ passed
      rw [removed name value concealed] at passed
      exact Bool.false_ne_true passed
    rw [none_of, none_of]
  · rw [agree name concealed]

theorem AgreeOutside.value_eq (agree : AgreeOutside hidden left right) {name : String}
    (visible : ¬ hidden name)
    : left.value name = right.value name := by
  rw [value, value, agree name visible]

end LogIntake.LabelSet

namespace LogIntake.Relabel

variable {hidden : String → Prop} {left right : LabelSet}

/-- The rule reads no hidden name: it does not list one as a source, does not compare with
one, and does not map one.
-/
structure CompiledRule.Ignores (compiled : CompiledRule) (hidden : String → Prop) : Prop where
  sources : ∀ name ∈ compiled.rule.sourceLabels, ¬ hidden name
  compared
    : compiled.rule.action = .keepEqual ∨ compiled.rule.action = .dropEqual
      → ¬ hidden compiled.rule.targetLabel
  mapped
    : compiled.rule.action = .labelMap
      → ∀ name, hidden name → compiled.isMatch name = false

namespace CompiledRule

variable {compiled : CompiledRule}

theorem Ignores.sourceValue_eq (ignores : compiled.Ignores hidden)
    (agree : LabelSet.AgreeOutside hidden left right)
    : compiled.rule.sourceValue left = compiled.rule.sourceValue right := by
  have values
      : compiled.rule.sourceLabels.map left.value = compiled.rule.sourceLabels.map right.value := by
    apply List.map_congr_left
    intro name member
    exact agree.value_eq (ignores.sources name member)
  rw [Rule.sourceValue, Rule.sourceValue, values]

/-- The copies of a mapping rule are those of the labels that its pattern keeps. -/
theorem copies_eq_map_filter (compiled : CompiledRule) (labels : LabelSet)
    : compiled.copies labels
      = (labels.filter fun name _ => compiled.isMatch name).toList.map
          fun entry => (compiled.mappedName entry.1, entry.2) :=
  rfl

/-- A mapping rule copies visible labels only, and therefore the same ones. -/
theorem Ignores.copies_eq (ignores : compiled.Ignores hidden)
    (mapping : compiled.rule.action = .labelMap)
    (agree : LabelSet.AgreeOutside hidden left right)
    : compiled.copies left = compiled.copies right := by
  have matching : (left.filter fun name _ => compiled.isMatch name)
      = right.filter fun name _ => compiled.isMatch name :=
    agree.filter_eq fun name _ concealed => ignores.mapped mapping name concealed
  rw [copies_eq_map_filter, copies_eq_map_filter, matching]

/-- One rule keeps agreement, by cases on the action. Both sets are dropped or both are kept,
since every test and every written value depends on visible labels only.
-/
theorem Ignores.apply_agree (ignores : compiled.Ignores hidden)
    (agree : LabelSet.AgreeOutside hidden left right)
    : Option.Rel (LabelSet.AgreeOutside hidden) (compiled.apply left)
        (compiled.apply right) := by
  have source := ignores.sourceValue_eq agree
  have compared := ignores.compared
  have mapped (mapping : compiled.rule.action = .labelMap)
      : compiled.copies left = compiled.copies right :=
    ignores.copies_eq mapping agree
  unfold apply
  dsimp only
  rw [source]
  cases action : compiled.rule.action with
  | drop =>
      dsimp only
      split
      · exact .none
      · exact .some agree
  | keep =>
      dsimp only
      split
      · exact .some agree
      · exact .none
  | dropEqual =>
      rw [agree.value_eq (compared (Or.inr action))]
      dsimp only
      split
      · exact .none
      · exact .some agree
  | keepEqual =>
      rw [agree.value_eq (compared (Or.inl action))]
      dsimp only
      split
      · exact .some agree
      · exact .none
  | replace =>
      refine .some ?_
      unfold replace
      split
      · exact agree
      · dsimp only
        split
        · exact agree.set _ _
        · exact agree
  | lowercase => exact .some (agree.set _ _)
  | uppercase => exact .some (agree.set _ _)
  | hashMod => exact .some (agree.set _ _)
  | labelMap =>
      rw [mapped action]
      exact .some (agree.setAll _)
  | labelDrop => exact .some (agree.filter _)
  | labelKeep => exact .some (agree.filter _)

end CompiledRule

theorem Rules.apply_agree {rules : Rules}
    (ignores : ∀ compiled ∈ rules, CompiledRule.Ignores compiled hidden)
    (agree : LabelSet.AgreeOutside hidden left right)
    : Option.Rel (LabelSet.AgreeOutside hidden) (rules.apply left) (rules.apply right) := by
  -- A dropped set ends both runs at the same rule.
  induction rules generalizing left right with
  | nil => exact .some agree
  | cons compiled rest ih =>
      obtain ⟨head, tail⟩ := List.forall_mem_cons.mp ignores
      have step {labels : LabelSet}
          : Rules.apply (compiled :: rest) labels
            = (compiled.apply labels).bind (Rules.apply rest) :=
        rfl
      have related := head.apply_agree agree
      rw [step, step]
      generalize compiled.apply left = leftNext at related ⊢
      generalize compiled.apply right = rightNext at related ⊢
      cases related with
      | none => exact .none
      | some kept => exact ih tail kept

end LogIntake.Relabel
