import LogIntake.Proofs.Calendar.DistinctText
import LogIntake.Proofs.Entry.StatedInstant
import LogIntake.Proofs.Formatter.Stages
import LogIntake.Proofs.Label.NameGrammar
import LogIntake.Proofs.Text.Delimited

/-! Records told apart by their text. A name ends at its equals sign, a value at its own closing
quote, the labels at their closing brace and the instant at its last letter, so whatever stands in a
value or in the line cannot pass for another part of the record.
-/

namespace LogIntake

open Label
open Text

-----------------------------------------------------------------------------------------
-- Labels
-----------------------------------------------------------------------------------------

/-- A name in which there is neither the sign behind it nor the brace behind all labels. -/
def TellsName (name : String) : Prop :=
  '=' ∉ name.toList ∧ ∃ first rest, name.toList = first :: rest ∧ first ≠ '\x7d'

theorem tellsName_of_isRecordName {name : String} (fit : isRecordName name = true)
    : TellsName name := by
  have label := (isRecordName_iff.mp fit).1
  have continues := label.continues
  obtain ⟨first, rest, chars, begins, _⟩ := label
  have noEquals : ¬ContinuesName '=' := by decide
  have noBrace : ¬ContinuesName '\x7d' := by decide
  refine ⟨fun member => noEquals (continues _ member), first, rest, chars, ?_⟩
  exact ContinuesName.ne (.inl begins) noBrace

theorem NameMap.toList_labelText (entry : String × String)
    : (labelText entry).toList = entry.1.toList ++ '=' :: Quoted.encode entry.2.toList := by
  have quoted : (Quoted.quote entry.2).toList = Quoted.encode entry.2.toList := String.toList_ofList
  rw [labelText, String.toList_append, String.toList_append, quoted, List.append_assoc]
  rfl

/-- A label ends at the closing quote of its value. -/
theorem NameMap.labelText_selfDelimiting
    : SelfDelimiting (fun entry : String × String => TellsName entry.1)
        fun entry => (labelText entry).toList where
  cut := by
    intro first second rest behind fit otherFit same
    rw [toList_labelText, toList_labelText, List.append_assoc, List.append_assoc] at same
    obtain ⟨name, same⟩ := (SelfDelimiting.marked '=').cut_mark fit.1 otherFit.1 same
    obtain ⟨value, same⟩ := Quoted.encode_selfDelimiting.cut trivial trivial same
    exact ⟨Prod.ext (String.toList_inj.mp name) (String.toList_inj.mp value), same⟩

theorem NameMap.exists_labelText_eq_cons (entry : String × String) (fit : TellsName entry.1)
    : ∃ head tail, (labelText entry).toList = head :: tail ∧ head ≠ '\x7d' := by
  obtain ⟨_, first, rest, chars, different⟩ := fit
  rw [toList_labelText, chars]
  exact ⟨first, _, rfl, different⟩

/-- The labels of a record end at the brace behind them, however many braces stand in their values.
-/
theorem RecordLabels.display_selfDelimiting
    : SelfDelimiting (fun _ => True) fun labels : RecordLabels => labels.display.toList where
  cut := by
    have printed (labels : RecordLabels)
        : labels.display.toList
          = '\x7b'
            :: ([',', ' '].intercalate
                (labels.toList.map fun entry => (NameMap.labelText entry).toList) ++ ['\x7d']) := by
      rw [display, NameMap.display, String.toList_append, String.toList_append,
        String.toList_intercalate, List.map_map]
      rfl
    have fit (labels : RecordLabels) : ∀ entry ∈ labels.toList, TellsName entry.1 :=
      fun entry member => tellsName_of_isRecordName (labels.named entry member)
    intro first second rest behind _ _ same
    rw [printed, printed] at same
    obtain ⟨entries, same⟩ :=
      (NameMap.labelText_selfDelimiting.separated [' '] (by decide)
          NameMap.exists_labelText_eq_cons).cut
        (fit first) (fit second) (List.cons.inj same).2
    refine ⟨?_, same⟩
    obtain ⟨⟨_, _⟩, _⟩ := first
    obtain ⟨⟨_, _⟩, _⟩ := second
    cases entries
    rfl

-----------------------------------------------------------------------------------------
-- Records
-----------------------------------------------------------------------------------------

namespace Record

/-- Records whose instants lie within their seconds are told apart by their text. -/
theorem eq_of_display_eq {first second : Record}
    (within : first.timestamp.nanos < Calendar.nanosPerSecond)
    (otherWithin : second.timestamp.nanos < Calendar.nanosPerSecond)
    (same : first.display = second.display)
    : first = second := by
  have printed (record : Record)
      : record.display.toList
        = record.timestamp.chars
          ++ ' ' :: (record.labels.display.toList ++ ' ' :: record.line.toList) := by
    have stamp : record.timestamp.text.toList = record.timestamp.chars := String.toList_ofList
    simp only [display, String.toList_append, stamp, List.append_assoc]
    rfl
  have chars := congrArg String.toList same
  rw [printed, printed] at chars
  obtain ⟨timestamp, chars⟩ := Calendar.chars_selfDelimiting.cut within otherWithin chars
  obtain ⟨labels, chars⟩ :=
    RecordLabels.display_selfDelimiting.cut trivial trivial (List.cons.inj chars).2
  have line := String.toList_inj.mp (List.cons.inj chars).2
  cases first
  cases second
  rw [mk.injEq]
  exact ⟨labels, timestamp, line⟩

end Record

namespace Formatter

theorem Emits.nanos_lt {formatter : Formatter} {now : Calendar.Instant} {record : Record}
    (emitted : formatter.Emits now record) (within : now.nanos < Calendar.nanosPerSecond)
    : record.timestamp.nanos < Calendar.nanosPerSecond := by
  obtain ⟨raw, base, formatted⟩ := emitted.overBase
  obtain ⟨entry, _, timestamp, _, _, dated, rfl⟩ := formatWithBase_eq_some_iff.mp formatted
  unfold Entry.instant at dated
  split at dated
  case isTrue =>
    have read := (entry.statement.eq_ok_iff.mp dated).1
    exact (Calendar.readLayout_bounds read).1
  case isFalse =>
    cases dated
    exact within

/-- Two records that formatters make have the same text only if they are the same record: the same
instant, the same names and values of labels, and the same line. Nothing is asked of the values and
of the line. The clock has to tell instants within their seconds, as clocks do.
-/
theorem display_unambiguous {formatter other : Formatter} {now later : Calendar.Instant}
    (within : now.nanos < Calendar.nanosPerSecond)
    (otherWithin : later.nanos < Calendar.nanosPerSecond) {first second : Record}
    (emitted : formatter.Emits now first) (otherEmitted : other.Emits later second)
    (same : first.display = second.display)
    : first = second :=
  Record.eq_of_display_eq (emitted.nanos_lt within) (otherEmitted.nanos_lt otherWithin) same

/-- A value that looks like the end of the labels, and a line that looks like labels, in a record
with a stated instant and in one with the instant of the clock.
-/
theorem display_unambiguous_forged
    : let static := RecordLabels.empty.insertIfNamed "a" "\"\x7d x, b=\"\n"
      let stated := { Formatter.default with static, useIncomingTimestamp := true }
      let clocked := { Formatter.default with static }
      let raw (stamp : String) :=
        Text.Utf8.encode
          ("\x7b\"timestamp\":\"" ++ stamp
            ++ "\",\"textPayload\":\" \x7bb=\\\"\\\"\x7d\"\x7d")
      let later : Calendar.Instant := ⟨1709249400, 500000000⟩
      ∃ first second,
        stated.format .epoch (raw "2024-03-01T01:00:00,500+01:30") = .ok (some first)
        ∧ clocked.format later (raw "") = .ok (some second)
        ∧ first.labels.toList = [("a", "\"\x7d x, b=\"\n")]
        ∧ first.display = second.display
        ∧ first = second := by
  intro static stated clocked raw later
  let record : Record := ⟨static, later, " \x7bb=\"\"\x7d"⟩
  have first : stated.format .epoch (raw "2024-03-01T01:00:00,500+01:30") = .ok (some record) := by
    decide +kernel
  have second : clocked.format later (raw "") = .ok (some record) := by
    decide +kernel
  refine ⟨record, record, first, second, by decide +kernel, rfl, ?_⟩
  exact display_unambiguous (by decide) (by decide) (.plain first) (.plain second) rfl

end Formatter

end LogIntake
