import LogIntake.Formatter
import LogIntake.Proofs.Outcome

/-! The stages of formatting, read backwards from a record. A record comes from an entry that
decodes, a label set that relabelling keeps and an instant that the policy yields, whichever
of the three entry points it came through.
-/

namespace LogIntake.Formatter

variable {formatter : Formatter} {now : Calendar.Instant} {record : Record}

/-- A record over base labels is what its stages produce, and they all succeeded. -/
theorem formatWithBase_eq_some_iff {raw : List UInt8} {base : LabelSet}
    : formatter.formatWithBase now raw base = .ok (some record)
      ↔ ∃ entry labels timestamp,
          Entry.decode raw = .ok entry
          ∧ formatter.relabel (InternalLabels.assemble entry base formatter.sanitize)
            = some labels
          ∧ entry.instant formatter.useIncomingTimestamp now = .ok timestamp
          ∧ record
            = {
                labels := labels.publish formatter.static
                timestamp
                line := entry.recordLine raw formatter.useFullLine
              } := by
  unfold formatWithBase
  rw [bind_eq_ok_iff]
  simp only [mapError_eq_ok_iff]
  constructor
  · rintro ⟨entry, decoded, finished⟩
    split at finished
    case h_1 => exact absurd (Except.ok.inj finished) (by simp)
    case h_2 labels relabelled =>
      obtain ⟨timestamp, dated, returned⟩ := bind_eq_ok_iff.mp finished
      exact ⟨entry, labels, timestamp, decoded, relabelled, dated,
        (Option.some.inj (Except.ok.inj returned)).symm⟩
  · rintro ⟨entry, labels, timestamp, decoded, relabelled, dated, rfl⟩
    refine ⟨entry, decoded, ?_⟩
    rw [relabelled]
    exact bind_eq_ok_iff.mpr ⟨timestamp, dated, rfl⟩

/-- A push request gives a record exactly if its envelope and its data decode and the data
gives that record over the labels of the envelope.
-/
theorem formatPush_eq_some_iff {body : List UInt8}
    : formatter.formatPush now body = .ok (some record)
      ↔ ∃ push raw,
          PushMessage.decode body = .ok push
          ∧ push.payload = .ok raw
          ∧ formatter.formatWithBase now raw (InternalLabels.ofPush push formatter.sanitize)
            = .ok (some record) := by
  simp only [formatPush, bind_eq_ok_iff, mapError_eq_ok_iff]
  constructor
  · rintro ⟨push, decoded, raw, carried, formatted⟩
    exact ⟨push, raw, decoded, carried, formatted⟩
  · rintro ⟨push, raw, decoded, carried, formatted⟩
    exact ⟨push, decoded, raw, carried, formatted⟩

/-- The formatter makes a record through one of its three entry points. -/
inductive Emits (formatter : Formatter) (now : Calendar.Instant) (record : Record) : Prop
  | plain {raw} (formatted : formatter.format now raw = .ok (some record))
  | based {raw base}
    (formatted : formatter.formatWithBase now raw base = .ok (some record))
  | pushed {body} (formatted : formatter.formatPush now body = .ok (some record))

/-- All entry points end in formatting over some base labels. -/
theorem Emits.overBase (emitted : formatter.Emits now record)
    : ∃ raw base, formatter.formatWithBase now raw base = .ok (some record) := by
  cases emitted with
  | plain formatted => exact ⟨_, .empty, formatted⟩
  | based formatted => exact ⟨_, _, formatted⟩
  | pushed formatted =>
      obtain ⟨push, raw, _, _, based⟩ := formatPush_eq_some_iff.mp formatted
      exact ⟨raw, _, based⟩

/-- The formatter makes a record from labels that it has assembled: those of an entry over no
labels, over the given base, or over the labels of the envelope that delivers the entry.
-/
inductive EmitsFrom (formatter : Formatter) (now : Calendar.Instant) (record : Record)
    : LabelSet → Prop
  | plain {raw entry} (decoded : Entry.decode raw = .ok entry)
    (formatted : formatter.format now raw = .ok (some record))
    : EmitsFrom formatter now record
        (InternalLabels.assemble entry .empty formatter.sanitize)
  | based {raw entry base} (decoded : Entry.decode raw = .ok entry)
    (formatted : formatter.formatWithBase now raw base = .ok (some record))
    : EmitsFrom formatter now record
        (InternalLabels.assemble entry base formatter.sanitize)
  | pushed {body push raw entry} (opened : PushMessage.decode body = .ok push)
    (carried : push.payload = .ok raw) (decoded : Entry.decode raw = .ok entry)
    (formatted : formatter.formatPush now body = .ok (some record))
    : EmitsFrom formatter now record
        (InternalLabels.assemble entry (InternalLabels.ofPush push formatter.sanitize)
          formatter.sanitize)

/-- Every record is made from assembled labels. -/
theorem Emits.assembled (emitted : formatter.Emits now record)
    : ∃ assembled, formatter.EmitsFrom now record assembled := by
  obtain ⟨raw, base, formatted⟩ := emitted.overBase
  obtain ⟨entry, _, _, decoded, _⟩ := formatWithBase_eq_some_iff.mp formatted
  exact ⟨_, .based decoded formatted⟩

/-- Whichever way a record comes, its entry is formatted over the base that its labels are assembled
on.
-/
theorem EmitsFrom.overBase {assembled : LabelSet}
    (emitted : formatter.EmitsFrom now record assembled)
    : ∃ raw entry base,
        Entry.decode raw = .ok entry
        ∧ formatter.formatWithBase now raw base = .ok (some record)
        ∧ assembled = InternalLabels.assemble entry base formatter.sanitize := by
  cases emitted with
  | plain decoded formatted => exact ⟨_, _, _, decoded, formatted, rfl⟩
  | based decoded formatted => exact ⟨_, _, _, decoded, formatted, rfl⟩
  | pushed opened carried decoded formatted =>
      obtain ⟨push, raw, openedAgain, carriedAgain, based⟩ :=
        formatPush_eq_some_iff.mp formatted
      cases opened.symm.trans openedAgain
      cases carried.symm.trans carriedAgain
      exact ⟨_, _, _, decoded, based, rfl⟩

/-- The labels of a record are what is published of its assembled labels after relabelling, and
relabelling has kept them.
-/
theorem EmitsFrom.published {assembled : LabelSet}
    (emitted : formatter.EmitsFrom now record assembled)
    : ∃ labels,
        formatter.relabel assembled = some labels
        ∧ record.labels = labels.publish formatter.static := by
  obtain ⟨raw, entry, base, decoded, formatted, rfl⟩ := emitted.overBase
  obtain ⟨other, labels, _, again, relabelled, _, rfl⟩ := formatWithBase_eq_some_iff.mp formatted
  cases decoded.symm.trans again
  exact ⟨labels, relabelled, rfl⟩

/-- The labels of every record are published labels of a set that relabelling kept. -/
theorem Emits.published (emitted : formatter.Emits now record)
    : ∃ labels : LabelSet, record.labels = labels.publish formatter.static := by
  obtain ⟨assembled, made⟩ := emitted.assembled
  obtain ⟨labels, _, published⟩ := made.published
  exact ⟨labels, published⟩

end LogIntake.Formatter
