import LogIntake.Config.Target
import LogIntake.Proofs.Formatter.Stages
import LogIntake.Proofs.InternalLabels.Writes
import LogIntake.Proofs.Label.Publication
import LogIntake.Proofs.Regex.Expansion
import LogIntake.Proofs.Relabel.Compilation
import LogIntake.Proofs.Relabel.Effects

/-! Promotion of internal labels. What is known about an entry reaches a record only through a rule
that writes a label outside of the reserved names. Where no rule does, the names stay reserved from
the assembly to the publication, and the record shows its static labels alone.
-/

namespace LogIntake

open Label

namespace Relabel

/-- The rule copies no labels under mapped names, and if it writes a label, its target begins with
the mark of reserved names.
-/
structure Rule.PromotesNothing (rule : Rule) : Prop where
  unmapped : rule.action ≠ .labelMap
  internal
    : rule.action ∈ [Action.replace, .hashMod, .lowercase, .uppercase]
      → IsReserved rule.targetLabel

/-- A target that begins with the mark of reserved names is reserved after its references are
expanded, whatever they capture.
-/
theorem CompiledRule.Targets.isReserved {compiled : CompiledRule} {labels : LabelSet}
    {name : String} (target : compiled.Targets labels name)
    (contained : compiled.rule.PromotesNothing)
    : IsReserved name := by
  cases target with
  | expanded action =>
      obtain ⟨rest, text⟩ := contained.internal (by simp [action])
      unfold IsReserved
      rw [String.toList_ofList, Regex.expand, ← text]
      exact Regex.prefix_expandTemplate _ (by decide) rest
  | fixed action =>
      apply contained.internal
      simp only [List.mem_cons, List.not_mem_nil, or_false] at action ⊢
      rcases action with lower | upper | shard
      · exact .inr (.inr (.inl lower))
      · exact .inr (.inr (.inr upper))
      · exact .inr (.inl shard)

end Relabel

/-- A set of reserved names publishes nothing but the static labels. -/
theorem LabelSet.publish_eq_of_reserved {labels : LabelSet}
    (reserved : ∀ name ∈ labels.names, IsReserved name) (static : RecordLabels)
    : labels.publish static = static := by
  apply RecordLabels.ext_get?
  intro name
  rw [get?_publish]
  by_cases fit : isRecordName name = true
  · have absent : labels.get? name = none := by
      apply Option.eq_none_iff_forall_not_mem.mpr
      intro value found
      exact (isRecordName_iff.mp fit).2 (reserved name (mem_names_iff.mpr ⟨value, found⟩))
    rw [if_pos fit, absent, Option.or_none]
  · rw [if_neg fit, Option.or_none]

namespace Target

/-- With rules that promote nothing, every record of a configured formatter has exactly the static
labels, whether it comes from an entry or from a push request. Witness: all names are reserved
after the assembly, and every rule keeps them so.
-/
theorem record_labels_eq_static {target : Target} {formatter : Formatter}
    (configured : target.formatter = .ok formatter)
    (contained : ∀ rule ∈ target.rules, rule.PromotesNothing)
    (now : Calendar.Instant) (record : Record)
    (emitted
      : (∃ raw, formatter.format now raw = .ok (some record))
        ∨ ∃ body, formatter.formatPush now body = .ok (some record))
    : record.labels = target.labels := by
  obtain ⟨rules, compiled, returned⟩ := bind_eq_ok_iff.mp configured
  cases returned
  have base : ∃ raw base,
      (∀ name ∈ base.names, IsReserved name)
      ∧ (target.formatterWith rules.apply Label.sanitize).formatWithBase now raw base
        = .ok (some record) := by
    rcases emitted with ⟨raw, formatted⟩ | ⟨body, formatted⟩
    · exact ⟨raw, .empty, fun name member => absurd member List.not_mem_nil, formatted⟩
    · obtain ⟨push, raw, _, _, formatted⟩ := Formatter.formatPush_eq_some_iff.mp formatted
      refine ⟨raw, _, ?_, formatted⟩
      intro name member
      obtain ⟨value, found⟩ := LabelSet.mem_names_iff.mp member
      exact InternalLabels.isReserved_of_ofPush_get? found
  obtain ⟨raw, base, reserved, formatted⟩ := base
  obtain ⟨entry, labels, timestamp, _, relabelled, _, rfl⟩ :=
    Formatter.formatWithBase_eq_some_iff.mp formatted
  have held (step : Relabel.CompiledRule) (member : step ∈ rules) : step.rule.PromotesNothing :=
    contained step.rule (Relabel.Rules.rule_mem_of_compile compiled member)
  have kept : ∀ name ∈ labels.names, IsReserved name :=
    Relabel.Rules.apply_names (fun step member => (held step member).unmapped)
      (fun step member _ _ target => target.isReserved (held step member))
      (InternalLabels.isReserved_of_mem_assemble reserved) relabelled
  exact LabelSet.publish_eq_of_reserved kept target.labels

/-- A push request with a severity and an attribute goes through a rule that writes a reserved name
made of the severity and one that stores a shard, and its record shows the static label only.
-/
theorem record_labels_eq_static_attributes
    : let seen : Relabel.Rule :=
        {
          Relabel.Rule.default with
          sourceLabels := ["__gcp_severity"]
          targetLabel := "__seen_$1"
        }
      let shard : Relabel.Rule :=
        {
          Relabel.Rule.default with
          sourceLabels := ["__gcp_attributes_k"]
          modulus := 8
          targetLabel := "__shard"
          action := .hashMod
        }
      let target : Target :=
        {
          Target.default with
          labels := RecordLabels.empty.insertIfNamed "job" "x"
          rules := [seen, shard]
        }
      let body :=
        "\x7b\"message\":\x7b\"data\":\"eyJzZXZlcml0eSI6IkUifQ==\",\"messageId\":\"7\","
          ++ "\"attributes\":\x7b\"k\":\"v\"\x7d\x7d,\"subscription\":\"s\"\x7d"
      ∃ formatter record,
        target.formatter = .ok formatter
        ∧ (∀ rule ∈ target.rules, rule.PromotesNothing)
        ∧ formatter.formatPush zeroInstant (Text.Utf8.encode body) = .ok (some record)
        ∧ record.labels.toList = [("job", "x")] := by
  intro seen shard target body
  have formats
      : target.formatter.toOption.any
          (fun formatter =>
            (formatter.formatPush zeroInstant (Text.Utf8.encode body)).toOption.any Option.isSome)
        = true := by
    decide +kernel
  have contained : ∀ rule ∈ target.rules, rule.PromotesNothing := by
    have checked : ∀ rule ∈ target.rules,
        rule.action ≠ .labelMap ∧ isInternal rule.targetLabel = true := by
      decide
    intro rule member
    obtain ⟨unmapped, internal⟩ := checked rule member
    exact ⟨unmapped, fun _ => isInternal_iff.mp internal⟩
  cases configured : target.formatter with
  | error fault => simp [configured, Except.toOption] at formats
  | ok formatter =>
      rw [configured, Except.toOption, Option.any_some] at formats
      cases formatted : formatter.formatPush zeroInstant (Text.Utf8.encode body) with
      | error fault => simp [formatted, Except.toOption] at formats
      | ok outcome =>
          rw [formatted, Except.toOption, Option.any_some, Option.isSome_iff_exists] at formats
          obtain ⟨record, rfl⟩ := formats
          have labels :=
            record_labels_eq_static configured contained zeroInstant record (.inr ⟨_, formatted⟩)
          exact ⟨formatter, record, rfl, contained, formatted, labels ▸ rfl⟩

end Target

end LogIntake
