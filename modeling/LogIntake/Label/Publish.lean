import LogIntake.Label.RecordLabels

/-! From the labels that rules have worked on to the labels of a record. Internal labels and
labels with unfit names are left out, and the configured labels are laid over the rest.
-/

namespace LogIntake

/-- The record's labels: those whose names are fit for a record, under the static labels. -/
def LabelSet.publish (labels : LabelSet) (static : RecordLabels) : RecordLabels :=
  let kept := labels.toList.foldl (fun out entry => RecordLabels.insertIfNamed out entry.1 entry.2)
    RecordLabels.empty
  kept.merge static

end LogIntake
