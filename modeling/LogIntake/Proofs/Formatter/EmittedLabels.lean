import LogIntake.Proofs.Formatter.Stages
import LogIntake.Proofs.Label.NameGrammar
import LogIntake.Proofs.Label.Publication

/-! The labels that leave the pipeline. Whatever relabelling and cleaning do, no internal or
malformed name gets out, and an empty value can only have been configured.
-/

namespace LogIntake.Formatter

open Label

/-- A label of a record has a name that the grammar admits and nobody reserves, and an empty
value only if it is a static label. Witness: publication lets fit names through only, and a
label set has no empty value to contribute.
-/
theorem emitted_labels_external (formatter : Formatter) (now : Calendar.Instant)
    (record : Record) (emitted : formatter.Emits now record)
    : ∀ name value,
        (name, value) ∈ record.labels.toList
        → IsLabelName name
          ∧ ¬ IsReserved name
          ∧ (value = "" → (name, value) ∈ formatter.static.toList) := by
  obtain ⟨labels, published⟩ := emitted.published
  intro name value member
  have found : record.labels.get? name = some value := RecordLabels.mem_toList_iff.mp member
  have fit : isRecordName name = true := RecordLabels.isRecordName_of_get? found
  refine ⟨(isRecordName_iff.mp fit).1, (isRecordName_iff.mp fit).2, ?_⟩
  intro empty
  rw [published, LabelSet.get?_publish, if_pos fit, Option.or_eq_some_iff] at found
  rcases found with configured | ⟨_, relabelled⟩
  · exact RecordLabels.mem_toList_iff.mpr configured
  · exact absurd empty (LabelSet.get?_ne_empty relabelled)

/-- A formatter with an empty static label and a relabelling that copies the severity emits
both labels, the empty one because it is static.
-/
theorem emitted_labels_external_severity
    : let static := RecordLabels.empty.insertIfNamed "job" ""
      let formatter : Formatter :=
        {
          Formatter.default with
          static
          relabel := fun labels => some (labels.set "level" (labels.value "__gcp_severity"))
        }
      let document := "\x7b\"severity\":\"E\"\x7d"
      let record : Record :=
        {
          labels := static.insertIfNamed "level" "E"
          timestamp := zeroInstant
          line := document
        }
      formatter.format zeroInstant (Text.Utf8.encode document) = .ok (some record)
      ∧ record.labels.toList = [("job", ""), ("level", "E")]
      ∧ (IsLabelName "level" ∧ ¬ IsReserved "level")
      ∧ ("job", "") ∈ formatter.static.toList := by
  intro static formatter document record
  have formatted : formatter.format zeroInstant (Text.Utf8.encode document)
      = .ok (some record) := by
    decide +kernel
  have labels : record.labels.toList = [("job", ""), ("level", "E")] := by
    decide +kernel
  have external :=
    emitted_labels_external formatter zeroInstant record (.plain formatted)
  have level := external "level" "E" (by rw [labels]; simp)
  have job := external "job" "" (by rw [labels]; simp)
  exact ⟨formatted, labels, ⟨level.1, level.2.1⟩, job.2.2 rfl⟩

end LogIntake.Formatter
