import LogIntake.Proofs.Formatter.Stages
import LogIntake.Proofs.InternalLabels.Writes
import LogIntake.Proofs.Label.Publication
import LogIntake.Proofs.Relabel.Agreement
import LogIntake.Proofs.Relabel.Compilation

/-! Push requests and plain entries. An envelope adds reserved labels below those of its entry;
rules that read none of them treat the entry as if it had come alone, and publication removes
whatever is left of the difference.
-/

namespace LogIntake.Formatter

open Label Relabel

variable {formatter : Formatter} {now : Calendar.Instant}

/-- The outcome of formatting depends on the relabelled set only through the labels that it
publishes, so bases that lead to the same published labels give the same outcome.
-/
theorem formatWithBase_congr {raw : List UInt8} {left right : LabelSet}
    (relabelled
      : ∀ entry,
          Option.Rel (fun first second : LabelSet =>
              first.publish formatter.static = second.publish formatter.static)
            (formatter.relabel (InternalLabels.assemble entry left formatter.sanitize))
            (formatter.relabel (InternalLabels.assemble entry right formatter.sanitize)))
    : formatter.formatWithBase now raw left = formatter.formatWithBase now raw right := by
  unfold formatWithBase
  cases (Entry.decode raw).mapError FormatError.decode with
  | error e => rfl
  | ok entry =>
      have related := relabelled entry
      simp only [bind, Except.bind]
      generalize formatter.relabel (InternalLabels.assemble entry left formatter.sanitize)
        = first at related ⊢
      generalize formatter.relabel (InternalLabels.assemble entry right formatter.sanitize)
        = second at related ⊢
      cases related with
      | none => rfl
      | some published => simp only [published]

/-- Sets that agree outside reserved names publish the same labels. -/
theorem publish_eq_of_agreeOutside {hidden : String → Prop} {left right : LabelSet}
    (reserved : ∀ name, hidden name → IsReserved name)
    (agree : LabelSet.AgreeOutside hidden left right) (static : RecordLabels)
    : left.publish static = right.publish static := by
  apply LabelSet.publish_congr
  intro name fit
  apply agree
  intro concealed
  exact (isRecordName_iff.mp fit).2 (reserved name concealed)

/-- A formatter whose rules read no label of the envelope formats a push request exactly as it
formats the entry that the request delivers. Witness: the two runs start from sets that agree
outside the names of the envelope, every rule keeps that, and those names are reserved.
-/
theorem formatPush_eq_format (formatter : Formatter) (rules : Rules)
    (now : Calendar.Instant) (body raw : List UInt8) (push : PushMessage)
    (relabels : formatter.relabel = rules.apply)
    (decoded : PushMessage.decode body = .ok push)
    (carried : push.payload = .ok raw)
    (unread
      : ∀ compiled ∈ rules,
          CompiledRule.Ignores compiled fun name =>
            (InternalLabels.ofPush push formatter.sanitize).contains name = true)
    : formatter.formatPush now body = formatter.format now raw := by
  let envelope := InternalLabels.ofPush push formatter.sanitize
  let hidden : String → Prop := fun name => envelope.contains name = true
  have reserved : ∀ name, hidden name → IsReserved name := by
    intro name present
    obtain ⟨value, found⟩ := LabelSet.contains_iff.mp present
    exact InternalLabels.isReserved_of_ofPush_get? found
  have base : LabelSet.AgreeOutside hidden envelope LabelSet.empty := by
    intro name visible
    cases found : envelope.get? name with
    | none => rfl
    | some value => exact absurd (LabelSet.contains_iff.mpr ⟨value, found⟩) visible
  have pushed : formatter.formatPush now body = formatter.formatWithBase now raw envelope := by
    simp only [formatPush, decoded, carried, Except.mapError, bind, Except.bind, envelope]
  rw [pushed, format]
  apply formatWithBase_congr
  intro entry
  have assembled := base.setAll (InternalLabels.entryWrites entry formatter.sanitize)
  rw [← InternalLabels.assemble_eq_setAll, ← InternalLabels.assemble_eq_setAll] at assembled
  have relabelled := Rules.apply_agree unread assembled
  rw [relabels]
  generalize rules.apply (InternalLabels.assemble entry envelope formatter.sanitize)
    = first at relabelled ⊢
  generalize rules.apply (InternalLabels.assemble entry .empty formatter.sanitize)
    = second at relabelled ⊢
  cases relabelled with
  | none => exact .none
  | some agree => exact .some (publish_eq_of_agreeOutside reserved agree formatter.static)

/-- A list that promotes the severity and drops the attributes of the envelope reads none of
its labels, and so a delivered entry is formatted like the entry itself.
-/
theorem formatPush_eq_format_promoted_severity
    : let promote : Rule :=
        { Rule.default with sourceLabels := ["__gcp_severity"], targetLabel := "level" }
      let forget : Rule :=
        { Rule.default with regex := "__gcp_attributes_.*", action := .labelDrop }
      let document := "\x7b\"severity\":\"E\"\x7d"
      let body :=
        "\x7b\"message\":\x7b\"data\":\"eyJzZXZlcml0eSI6IkUifQ==\",\"messageId\":\"7\","
          ++ "\"attributes\":\x7b\"k\":\"v\"\x7d\x7d,\"subscription\":\"s\"\x7d"
      ∃ rules push,
        Rules.compile [promote, forget] = .ok rules
        ∧ PushMessage.decode (Text.Utf8.encode body) = .ok push
        ∧ (InternalLabels.ofPush push Label.sanitize).names
          = ["__gcp_attributes_k", "__gcp_message_id", "__gcp_subscription_name"]
        ∧ { Formatter.default with relabel := rules.apply }.formatPush zeroInstant
            (Text.Utf8.encode body)
          = { Formatter.default with relabel := rules.apply }.format zeroInstant
              (Text.Utf8.encode document) := by
  intro promote forget document body
  let push : PushMessage :=
    ⟨⟨⟨[("k", "v")], by simp⟩, "eyJzZXZlcml0eSI6IkUifQ==", "7", ""⟩, "s"⟩
  have decoded : PushMessage.decode (Text.Utf8.encode body) = .ok push := by decide +kernel
  have carried : push.payload = .ok (Text.Utf8.encode document) := by decide +kernel
  have names : (InternalLabels.ofPush push Label.sanitize).names
      = ["__gcp_attributes_k", "__gcp_message_id", "__gcp_subscription_name"] := by
    decide +kernel
  have sources : ∀ name ∈ promote.sourceLabels ++ forget.sourceLabels,
      ¬ (InternalLabels.ofPush push Label.sanitize).contains name = true := by
    decide +kernel
  have actions : ∀ rule ∈ [promote, forget],
      rule.action ≠ .keepEqual ∧ rule.action ≠ .dropEqual ∧ rule.action ≠ .labelMap := by
    decide
  cases compilation : Rules.compile [promote, forget] with
  | error fault =>
      have accepted : (Rules.compile [promote, forget]).toOption.isSome := by decide +kernel
      simp [compilation, Except.toOption] at accepted
  | ok rules =>
      refine ⟨rules, push, rfl, decoded, names, ?_⟩
      apply formatPush_eq_format _ rules zeroInstant _ _ push rfl decoded carried
      intro compiled member
      have configured := Rules.rule_mem_of_compile compilation member
      obtain ⟨notKeepEqual, notDropEqual, notLabelMap⟩ := actions compiled.rule configured
      refine ⟨?_, fun action => (action.elim notKeepEqual notDropEqual).elim,
        fun action => absurd action notLabelMap⟩
      intro name listed
      simp only [List.mem_cons, List.not_mem_nil, or_false] at configured
      apply sources
      rcases configured with rule | rule
      · exact List.mem_append_left _ (rule ▸ listed)
      · exact List.mem_append_right _ (rule ▸ listed)

end LogIntake.Formatter
