import LogIntake.Proofs.Label.SetLookup
import LogIntake.Proofs.Text.ByteOrder
import LogIntake.Relabel.Apply
import Mathlib.Data.Set.Card

/-! Label sets by their histories. What a set holds under a name is decided by the last change that
affected the name, and the set is no more than that: a finite map in the order of its names, without
empty values. Histories that agree on the values of all labels, absent ones counted as empty, cannot
be told apart by any rules.
-/

namespace LogIntake.LabelSet

/-- A change of a label set. -/
inductive Change where
  | set (name value : String)
  | remove (name : String)
  | retain (keep : String → String → Bool)

namespace Change

def apply (labels : LabelSet) : Change → LabelSet
  | .set name value => labels.set name value
  | .remove name => labels.erase name
  | .retain keep => labels.filter keep

/-- The change sets or removes the label of the name, whether or not there is one. -/
def Names (name : String) : Change → Prop
  | .set other _ => other = name
  | .remove other => other = name
  | .retain _ => False

/-- The change affects a label of the name and value: it sets or removes it, or it rejects it. -/
def Affects (name value : String) : Change → Prop
  | .set other _ => other = name
  | .remove other => other = name
  | .retain keep => keep name value = false

end Change

/-- Somewhere in the history a change decides, after what came before it, and all later changes are
idle.
-/
def Decided (decides : List Change → Change → Prop) (idle : Change → Prop)
    (history : List Change)
    : Prop :=
  ∃ before change after,
    history = before ++ change :: after
    ∧ decides before change
    ∧ ∀ later ∈ after, idle later

/-- In the history the name got the value, and no later change affected the label. -/
def Holds (history : List Change) (name value : String) : Prop :=
  value ≠ ""
  ∧ Decided (fun _ change => change = .set name value) (fun later => ¬later.Affects name value)
      history

/-- Behind the history the change takes the label of the name away: it sets it to the empty value,
removes it, or rejects it with the value that it holds.
-/
def Change.Clears (history : List Change) (name : String) : Change → Prop
  | .set other value => other = name ∧ value = ""
  | .remove other => other = name
  | .retain keep => ∃ value, Holds history name value ∧ keep name value = false

/-- In the history no change ever set or removed the name, or a change took its label away and no
later one set or removed it.
-/
def Lacks (history : List Change) (name : String) : Prop :=
  (∀ change ∈ history, ¬change.Names name)
  ∨ Decided (fun before change => change.Clears before name) (fun later => ¬later.Names name)
      history

/-- The set that a history leaves of the empty one. -/
def replay (history : List Change) : LabelSet :=
  history.foldl Change.apply empty

/-- The set that is built from a list of labels and changed afterwards. -/
def changed (entries : List (String × String)) (changes : List Change) : LabelSet :=
  changes.foldl Change.apply (ofList entries)

/-- The history of a set that is built from a list of labels and changed afterwards. -/
def historyOf (entries : List (String × String)) (changes : List Change) : List Change :=
  entries.map (fun entry => .set entry.1 entry.2) ++ changes

/-- Building a set from a list is setting its labels one by one. -/
theorem replay_historyOf (entries : List (String × String)) (changes : List Change)
    : replay (historyOf entries changes) = changed entries changes := by
  rw [replay, historyOf, List.foldl_append, List.foldl_map]
  rfl

theorem replay_concat (history : List Change) (change : Change)
    : replay (history ++ [change]) = change.apply (replay history) :=
  List.foldl_concat ..

-----------------------------------------------------------------------------------------
-- One change
-----------------------------------------------------------------------------------------

/-- After a change a label is there if the change sets it, or if it was there and is not affected,
by cases on the change.
-/
theorem Change.get?_apply_eq_some_iff {labels : LabelSet} {change : Change} {name value : String}
    : (change.apply labels).get? name = some value
      ↔ (change = .set name value ∧ value ≠ "")
        ∨ (labels.get? name = some value ∧ ¬change.Affects name value) := by
  cases change with
  | set other given =>
      by_cases same : other = name
      · subst same
        by_cases blank : given = ""
        · simp [apply, Affects, blank, eq_comm]
        · have given_ne : value = given → ¬value = "" := fun equal => equal ▸ blank
          simpa [apply, Affects, blank, eq_comm] using given_ne
      · simp [apply, Affects, same, Ne.symm same]
  | remove other =>
      by_cases same : other = name
      · simp [apply, Affects, same]
      · simp [apply, Affects, same, Ne.symm same]
  | retain keep => simp [apply, Affects]

/-- After a change there is no label of a name if there was none and the change does not set one, or
if the change takes the one that there was away.
-/
theorem Change.get?_apply_eq_none_iff {history : List Change} {change : Change} {name : String}
    {labels : LabelSet} (held : ∀ value, labels.get? name = some value ↔ Holds history name value)
    : (change.apply labels).get? name = none
      ↔ change.Clears history name ∨ (labels.get? name = none ∧ ¬change.Names name) := by
  cases change with
  | set other given =>
      by_cases same : other = name
      · subst same
        by_cases blank : given = "" <;> simp [apply, Clears, Names, blank]
      · simp [apply, Clears, Names, same, Ne.symm same]
  | remove other =>
      by_cases same : other = name
      · simp [apply, Clears, Names, same]
      · simp [apply, Clears, Names, same, Ne.symm same]
  | retain keep =>
      simp only [apply, Clears, Names, ← held]
      cases found : labels.get? name <;> simp [found]

-----------------------------------------------------------------------------------------
-- Histories
-----------------------------------------------------------------------------------------

/-- What the last change of a history decides, or what is decided before it while it is idle. -/
theorem decided_concat_iff {decides : List Change → Change → Prop} {idle : Change → Prop}
    {history : List Change} {last : Change}
    : Decided decides idle (history ++ [last])
      ↔ decides history last ∨ (Decided decides idle history ∧ idle last) := by
  constructor
  · intro decided
    obtain ⟨before, change, after, split, decision, later⟩ := decided
    rcases List.eq_nil_or_concat after with rfl | ⟨others, final, rfl⟩
    · obtain ⟨rfl, same⟩ := List.append_inj' split rfl
      cases same
      exact .inl decision
    · rw [List.concat_eq_append, ← List.cons_append, ← List.append_assoc] at split
      obtain ⟨rfl, same⟩ := List.append_inj' split rfl
      cases same
      rw [List.concat_eq_append, List.forall_mem_append] at later
      exact .inr ⟨⟨before, change, others, rfl, decision, later.1⟩, later.2 last (by simp)⟩
  · intro either
    rcases either with decision | ⟨decided, quiet⟩
    · exact ⟨history, last, [], rfl, decision, by simp⟩
    · obtain ⟨before, change, after, rfl, decision, later⟩ := decided
      refine ⟨before, change, after ++ [last], by simp, decision, ?_⟩
      rw [List.forall_mem_append]
      exact ⟨later, by simpa using quiet⟩

theorem not_decided_nil {decides : List Change → Change → Prop} {idle : Change → Prop}
    : ¬Decided decides idle [] := by
  intro decided
  obtain ⟨before, change, after, split, _⟩ := decided
  simp at split

theorem holds_concat_iff {history : List Change} {last : Change} {name value : String}
    : Holds (history ++ [last]) name value
      ↔ (last = .set name value ∧ value ≠ "")
        ∨ (Holds history name value ∧ ¬last.Affects name value) := by
  simp only [Holds, decided_concat_iff]
  tauto

/-- A label is missing behind a further change if that clears it, or if it was missing and is not
named.
-/
theorem lacks_concat_iff {history : List Change} {last : Change} {name : String}
    : Lacks (history ++ [last]) name
      ↔ last.Clears history name ∨ (Lacks history name ∧ ¬last.Names name) := by
  simp only [Lacks, decided_concat_iff, List.forall_mem_append, List.forall_mem_singleton]
  tauto

/-- A set holds what its history says, by induction on the history from its end. -/
theorem get?_replay_eq_some_iff {history : List Change} {name value : String}
    : (replay history).get? name = some value ↔ Holds history name value := by
  induction history using List.reverseRecOn generalizing value with
  | nil => simp [replay, Holds, not_decided_nil]
  | append_singleton history change ih =>
      rw [replay_concat, Change.get?_apply_eq_some_iff, holds_concat_iff, ih]

/-- A set lacks what its history says, by induction on the history from its end. -/
theorem get?_replay_eq_none_iff {history : List Change} {name : String}
    : (replay history).get? name = none ↔ Lacks history name := by
  induction history using List.reverseRecOn with
  | nil => simp [replay, Lacks]
  | append_singleton history change ih =>
      rw [replay_concat, lacks_concat_iff, ← ih]
      exact Change.get?_apply_eq_none_iff fun value => get?_replay_eq_some_iff

-----------------------------------------------------------------------------------------
-- Names
-----------------------------------------------------------------------------------------

/-- The names of a set are in the order of their bytes. -/
theorem names_ascending (labels : LabelSet)
    : labels.names.Pairwise Text.Utf8.BytesBefore := by
  refine List.pairwise_map.mpr (labels.map.ascending.imp ?_)
  intro left right less
  exact Text.Utf8.bytesBefore_of_lt less

/-- The size of a set is the number of names that have a label in it. -/
theorem size_eq_ncard (labels : LabelSet)
    : labels.size = Set.ncard {name | ∃ value, labels.get? name = some value} := by
  have distinct : labels.names.Nodup := by
    refine List.pairwise_map.mpr (labels.map.ascending.imp ?_)
    intro left right less
    exact String.ne_of_lt less
  have names
      : {name | ∃ value, labels.get? name = some value} = (labels.names.toFinset : Set String) := by
    ext name
    simp only [Set.mem_ofPred_eq, List.coe_toFinset, mem_names_iff]
  rw [names, Set.ncard_coe_finset, List.toFinset_card_of_nodup distinct]
  exact (List.length_map _).symm

/-- A set is determined by the values of its labels, those that are absent counted as empty. -/
theorem ext_value {left right : LabelSet} (agree : ∀ name, left.value name = right.value name)
    : left = right := by
  apply ext_get?
  intro name
  have same := agree name
  simp only [value] at same
  cases leftFound : left.get? name with
  | none =>
      cases rightFound : right.get? name with
      | none => rfl
      | some value =>
          simp only [leftFound, rightFound, Option.getD_none, Option.getD_some] at same
          exact absurd same.symm (get?_ne_empty rightFound)
  | some value =>
      cases rightFound : right.get? name with
      | none =>
          simp only [leftFound, rightFound, Option.getD_none, Option.getD_some] at same
          exact absurd same (get?_ne_empty leftFound)
      | some other =>
          simp only [leftFound, rightFound, Option.getD_some] at same
          rw [same]

-----------------------------------------------------------------------------------------
-- Sets as finite maps
-----------------------------------------------------------------------------------------

/-- A set that is built from a list of labels and changed afterwards is a finite map without empty
values: its names are in the order of their bytes, it has as many labels as there are names that its
history gives a value, and under each name it has the value that its history says, or none if its
history says so. Sets in which all labels have the same values, where an absent label counts as an
empty one, are the same to all rules.
-/
theorem changes_leave_finite_map (entries : List (String × String)) (changes : List Change)
    : let labels := changed entries changes
      let history := historyOf entries changes
      labels.names.Pairwise Text.Utf8.BytesBefore
      ∧ (∀ entry ∈ labels.toList, entry.2 ≠ "")
      ∧ labels.size = labels.names.length
      ∧ labels.size = Set.ncard {name | ∃ value, Holds history name value}
      ∧ (∀ name value, labels.get? name = some value ↔ Holds history name value)
      ∧ (∀ name, labels.get? name = none ↔ Lacks history name)
      ∧ ∀ otherEntries otherChanges,
          let other := changed otherEntries otherChanges
          (∀ name, labels.value name = other.value name)
          → ∀ rules : Relabel.Rules, rules.apply labels = rules.apply other := by
  intro labels history
  have replayed : replay history = labels := replay_historyOf entries changes
  have held (name value : String)
      : labels.get? name = some value ↔ Holds history name value := by
    rw [← replayed]
    exact get?_replay_eq_some_iff
  have lacked (name : String) : labels.get? name = none ↔ Lacks history name := by
    rw [← replayed]
    exact get?_replay_eq_none_iff
  have size : labels.size = Set.ncard {name | ∃ value, Holds history name value} := by
    simp only [← held]
    exact labels.size_eq_ncard
  refine ⟨labels.names_ascending, labels.nonempty, (List.length_map _).symm, size, held, lacked, ?_⟩
  intro otherEntries otherChanges other agree rules
  rw [ext_value agree]

/-- Three labels, of which one is emptied, one is rejected and one was empty from the start, leave
nothing behind but a later fourth one, and the rules see the same as if there had never been others.
-/
theorem changes_leave_finite_map_accent
    : let entries := [("b", "2"), ("a", "1"), ("c", "")]
      let changes : List Change :=
        [.set "a" "", .retain fun name _ => name != "b", .set "é" "x"]
      let labels := changed entries changes
      let history := historyOf entries changes
      let other := changed [("é", "x")] [.remove "a"]
      labels.toList = [("é", "x")]
      ∧ labels.size = Set.ncard {name | ∃ value, Holds history name value}
      ∧ Holds history "é" "x"
      ∧ Lacks history "a"
      ∧ Lacks history "b"
      ∧ Lacks history "c"
      ∧ (∀ name, labels.value name = other.value name)
      ∧ ∀ rules : Relabel.Rules, rules.apply labels = rules.apply other := by
  intro entries changes labels history other
  obtain ⟨_, _, _, size, held, lacked, alike⟩ := changes_leave_finite_map entries changes
  have same : labels = other := by decide +kernel
  have agree : ∀ name, labels.value name = other.value name := fun name => by rw [same]
  refine ⟨by decide +kernel, size, ?_, ?_, ?_, ?_, agree, ?_⟩
  · exact (held "é" "x").mp (by decide +kernel)
  · exact (lacked "a").mp (by decide +kernel)
  · exact (lacked "b").mp (by decide +kernel)
  · exact (lacked "c").mp (by decide +kernel)
  · exact alike [("é", "x")] [.remove "a"] agree

end LogIntake.LabelSet
