import LogIntake.Proofs.Formatter.Stages

/-! The two sides of formatting. Labels are decided on one side, timestamp and line on the other,
and neither side looks at what configures the other one. A record needs both; where the labels are
dropped, nobody asks for the rest.
-/

namespace LogIntake.Formatter

/-- The side of the labels: those of the record, or none if relabelling drops the entry. -/
def shownLabels (formatter : Formatter) (raw : List UInt8) (base : LabelSet)
    : Except Entry.Fault (Option RecordLabels) := do
  let entry ← Entry.decode raw
  let kept := formatter.relabel (InternalLabels.assemble entry base formatter.sanitize)
  return kept.map fun labels => labels.publish formatter.static

/-- The other side: the instant of the record and its line. -/
def resolved (formatter : Formatter) (now : Calendar.Instant) (raw : List UInt8)
    : Except FormatError (Calendar.Instant × String) := do
  let entry ← (Entry.decode raw).mapError .decode
  let timestamp ← entry.instant formatter.useIncomingTimestamp now
  return (timestamp, entry.recordLine raw formatter.useFullLine)

variable {formatter left right : Formatter} {now leftNow rightNow : Calendar.Instant}
variable {raw : List UInt8} {base : LabelSet}

/-- The side of the labels sees static labels, relabelling and cleaning only. -/
theorem shownLabels_congr (static : left.static = right.static)
    (relabel : left.relabel = right.relabel) (sanitize : left.sanitize = right.sanitize)
    : left.shownLabels raw base = right.shownLabels raw base := by
  simp only [shownLabels, static, relabel, sanitize]

/-- With the timestamp adopted, the other side sees no more than the policy on lines. -/
theorem resolved_congr (leftAdopts : left.useIncomingTimestamp = true)
    (rightAdopts : right.useIncomingTimestamp = true)
    (full : left.useFullLine = right.useFullLine)
    : left.resolved leftNow raw = right.resolved rightNow raw := by
  simp only [resolved, leftAdopts, rightAdopts, full, Entry.instant, if_true]

/-- The side of the labels fails only where the entry does not decode. -/
theorem shownLabels_of_decode {entry : Entry} (decoded : Entry.decode raw = .ok entry)
    : formatter.shownLabels raw base
      = .ok ((formatter.relabel (InternalLabels.assemble entry base formatter.sanitize)).map
          fun labels => labels.publish formatter.static) := by
  rw [shownLabels, decoded]
  rfl

/-- Formatting is the two sides put together, and the labels decide first whether the entry is
dropped.
-/
theorem formatWithBase_eq_sides (formatter : Formatter) (now : Calendar.Instant)
    (raw : List UInt8) (base : LabelSet)
    : formatter.formatWithBase now raw base
      = match formatter.shownLabels raw base with
        | .error fault => .error (.decode fault)
        | .ok none => .ok none
        | .ok (some labels) =>
            (formatter.resolved now raw).map fun rest => some ⟨labels, rest.1, rest.2⟩ := by
  unfold formatWithBase shownLabels resolved
  cases Entry.decode raw with
  | error fault => rfl
  | ok entry =>
      simp only [Except.mapError, bind, Except.bind, pure, Except.pure]
      cases formatter.relabel (InternalLabels.assemble entry base formatter.sanitize) with
      | none => rfl
      | some labels => cases entry.instant formatter.useIncomingTimestamp now <;> rfl

/-- An entry is dropped exactly if the side of the labels drops it. -/
theorem formatWithBase_eq_none_iff
    : formatter.formatWithBase now raw base = .ok none
      ↔ formatter.shownLabels raw base = .ok none := by
  rw [formatWithBase_eq_sides]
  cases formatter.shownLabels raw base with
  | error fault => simp
  | ok shown =>
      cases shown with
      | none => simp
      | some labels => cases formatter.resolved now raw <;> simp [Except.map]

/-- The labels of a record are those of its own side. -/
theorem shownLabels_of_formatWithBase {record : Record}
    (formatted : formatter.formatWithBase now raw base = .ok (some record))
    : formatter.shownLabels raw base = .ok (some record.labels) := by
  obtain ⟨entry, labels, timestamp, decoded, relabelled, _, rfl⟩ :=
    formatWithBase_eq_some_iff.mp formatted
  rw [shownLabels_of_decode decoded, relabelled, Option.map_some]

/-- An entry that is not dropped fails exactly as the other side does, or its record has the instant
and the line of that side.
-/
theorem formatWithBase_eq_map_resolved (kept : formatter.formatWithBase now raw base ≠ .ok none)
    : ∃ labels,
        formatter.formatWithBase now raw base
        = (formatter.resolved now raw).map fun rest => some ⟨labels, rest.1, rest.2⟩ := by
  cases decoded : Entry.decode raw with
  | error fault =>
      -- Both sides decode the same bytes, so no labels are needed for the error.
      refine ⟨.empty, ?_⟩
      simp only [formatWithBase, resolved, decoded, Except.mapError, bind, Except.bind, Except.map]
  | ok entry =>
      rw [formatWithBase_eq_sides, shownLabels_of_decode decoded] at kept ⊢
      cases relabelled
          : formatter.relabel (InternalLabels.assemble entry base formatter.sanitize) with
      | none => simp [relabelled] at kept
      | some labels => exact ⟨labels.publish formatter.static, rfl⟩

/-- Labels and timestamps do not interfere. Two formatters that treat labels alike drop the same
entries and show the same labels, whatever their policies are. Two formatters that both adopt the
timestamp and treat lines alike agree on the error, or on instant and line, of every entry that
neither drops. An entry is dropped exactly if relabelling drops it, even without a usable timestamp.
-/
theorem labels_and_timestamps_independent
    : (∀ left right : Formatter,
        left.static = right.static
        → left.relabel = right.relabel
        → left.sanitize = right.sanitize
        → ∀ leftNow rightNow raw base,
            (left.formatWithBase leftNow raw base = .ok none
              ↔ right.formatWithBase rightNow raw base = .ok none)
            ∧ ∀ first second,
                left.formatWithBase leftNow raw base = .ok (some first)
                → right.formatWithBase rightNow raw base = .ok (some second)
                → first.labels = second.labels)
      ∧ (∀ left right : Formatter,
          left.useIncomingTimestamp = true
          → right.useIncomingTimestamp = true
          → left.useFullLine = right.useFullLine
          → ∀ leftNow rightNow raw leftBase rightBase,
              left.formatWithBase leftNow raw leftBase ≠ .ok none
              → right.formatWithBase rightNow raw rightBase ≠ .ok none
              → (∃ fault,
                  left.formatWithBase leftNow raw leftBase = .error fault
                  ∧ right.formatWithBase rightNow raw rightBase = .error fault)
                ∨ ∃ first second,
                    left.formatWithBase leftNow raw leftBase = .ok (some first)
                    ∧ right.formatWithBase rightNow raw rightBase = .ok (some second)
                    ∧ first.timestamp = second.timestamp
                    ∧ first.line = second.line)
      ∧ ∀ (formatter : Formatter) now raw base entry,
          Entry.decode raw = .ok entry
          → (formatter.formatWithBase now raw base = .ok none
            ↔ formatter.relabel (InternalLabels.assemble entry base formatter.sanitize)
              = none) := by
  refine ⟨?_, ?_, ?_⟩
  · intro left right static relabel sanitize leftNow rightNow raw base
    have shown : left.shownLabels raw base = right.shownLabels raw base :=
      shownLabels_congr static relabel sanitize
    refine ⟨by rw [formatWithBase_eq_none_iff, formatWithBase_eq_none_iff, shown], ?_⟩
    intro first second leftFormatted rightFormatted
    have labels : Except.ok (some first.labels) = Except.ok (some second.labels) :=
      (shownLabels_of_formatWithBase leftFormatted).symm.trans
        (shown.trans (shownLabels_of_formatWithBase rightFormatted))
    exact Option.some.inj (Except.ok.inj labels)
  · intro left right leftAdopts rightAdopts full leftNow rightNow raw leftBase rightBase
      leftKept rightKept
    obtain ⟨leftLabels, leftOutcome⟩ := formatWithBase_eq_map_resolved leftKept
    obtain ⟨rightLabels, rightOutcome⟩ := formatWithBase_eq_map_resolved rightKept
    have rest : left.resolved leftNow raw = right.resolved rightNow raw :=
      resolved_congr leftAdopts rightAdopts full
    rw [leftOutcome, rightOutcome, rest]
    cases right.resolved rightNow raw with
    | error fault => exact .inl ⟨fault, rfl, rfl⟩
    | ok rest => exact .inr ⟨_, _, rfl, rfl, rfl, rfl⟩
  · intro formatter now raw base entry decoded
    rw [formatWithBase_eq_none_iff, shownLabels_of_decode decoded, Except.ok.injEq,
      Option.map_eq_none_iff]

/-- An entry with a timestamp shows the same level under both policies; one without a timestamp
fails alike for formatters with different labels, and is dropped without an error where relabelling
drops it.
-/
theorem labels_and_timestamps_independent_level
    : let promote : LabelSet → Option LabelSet :=
        fun labels => some (labels.set "level" (labels.value "__gcp_severity"))
      let clocked : Formatter := { Formatter.default with relabel := promote }
      let adopting : Formatter := { clocked with useIncomingTimestamp := true }
      let labelled : Formatter :=
        {
          Formatter.default with
          static := RecordLabels.empty.insertIfNamed "job" "x"
          useIncomingTimestamp := true
        }
      let dropping : Formatter := { adopting with relabel := fun _ => none }
      let dated :=
        Text.Utf8.encode
          "\x7b\"severity\":\"E\",\"timestamp\":\"2024-03-01T12:00:00Z\"\x7d"
      let undated := Text.Utf8.encode "\x7b\"severity\":\"E\"\x7d"
      (∃ first second,
        clocked.formatWithBase zeroInstant dated .empty = .ok (some first)
        ∧ adopting.formatWithBase zeroInstant dated .empty = .ok (some second)
        ∧ second.labels.toList = [("level", "E")]
        ∧ first.labels = second.labels)
      ∧ (adopting.formatWithBase zeroInstant undated .empty = .error .missingTimestamp
        ∧ labelled.formatWithBase zeroInstant undated .empty = .error .missingTimestamp)
      ∧ dropping.formatWithBase zeroInstant undated .empty = .ok none := by
  intro promote clocked adopting labelled dropping dated undated
  refine ⟨?_, ?_, ?_⟩
  · have formats
        : (clocked.formatWithBase zeroInstant dated .empty).toOption.any Option.isSome = true
          ∧ (adopting.formatWithBase zeroInstant dated .empty).toOption.any
              (Option.any fun record => record.labels.toList = [("level", "E")])
            = true := by
      decide +kernel
    obtain ⟨outcome, clockedFormats, isSome⟩ := any_toOption_iff.mp formats.1
    obtain ⟨first, rfl⟩ := Option.isSome_iff_exists.mp isSome
    obtain ⟨outcome, adoptingFormats, isSome⟩ := any_toOption_iff.mp formats.2
    obtain ⟨second, rfl, level⟩ := (Option.any_eq_true _ _).mp isSome
    have labels :=
      (labels_and_timestamps_independent.1 clocked adopting rfl rfl rfl zeroInstant zeroInstant
        dated .empty).2 first second clockedFormats adoptingFormats
    exact ⟨first, second, clockedFormats, adoptingFormats, of_decide_eq_true level, labels⟩
  · have fails : adopting.formatWithBase zeroInstant undated .empty = .error .missingTimestamp := by
      decide +kernel
    have kept : labelled.formatWithBase zeroInstant undated .empty ≠ .ok none := by
      decide +kernel
    refine ⟨fails, ?_⟩
    rcases labels_and_timestamps_independent.2.1 adopting labelled rfl rfl rfl zeroInstant
        zeroInstant undated .empty .empty (by simp [fails]) kept with
      ⟨fault, adoptingFails, labelledFails⟩ | ⟨first, second, adoptingFormats, _⟩
    · cases fails.symm.trans adoptingFails
      exact labelledFails
    · cases fails.symm.trans adoptingFormats
  · cases decoded : Entry.decode undated with
    | error fault =>
        have decodes : (Entry.decode undated).toOption.isSome = true := by decide +kernel
        simp [decoded, Except.toOption] at decodes
    | ok entry =>
        exact (labels_and_timestamps_independent.2.2 dropping zeroInstant undated .empty entry
          decoded).mpr rfl

end LogIntake.Formatter
