import LogIntake.Command.Run
import LogIntake.Proofs.Calendar.LayoutBounds
import LogIntake.Proofs.Formatter.Stages
import LogIntake.Proofs.Record.ReadBack
import LogIntake.Proofs.Report.Accounting

/-! Reports that are printed as JSON and read back. Nothing of a report is lost in print: counts and
line numbers are whole, texts are escaped, and the instants of records that adopt the timestamps of
their entries lie in years that can be read again.
-/

namespace LogIntake

open Json Text.Utf8

-----------------------------------------------------------------------------------------
-- Instants of records
-----------------------------------------------------------------------------------------

/-- An instant that an entry states is printable. -/
theorem Entry.isPrintable_of_statedInstant {entry : Entry} {instant : Calendar.Instant}
    (stated : entry.statedInstant = .ok instant)
    : instant.IsPrintable := by
  unfold statedInstant at stated
  dsimp only at stated
  split at stated
  case isTrue => cases stated
  case isFalse =>
    split at stated
    case h_1 => cases stated
    case h_2 read =>
      split at stated
      case isTrue => cases stated
      case isFalse =>
        cases stated
        exact Calendar.isPrintable_of_readLayout read

/-- A formatter that adopts timestamps makes records with printable instants only. -/
theorem Formatter.Emits.isPrintable {formatter : Formatter} {now : Calendar.Instant}
    {record : Record} (emitted : formatter.Emits now record)
    (adopts : formatter.useIncomingTimestamp = true)
    : record.timestamp.IsPrintable := by
  obtain ⟨raw, base, formatted⟩ := emitted.overBase
  obtain ⟨entry, labels, timestamp, _, _, stated, rfl⟩ := formatWithBase_eq_some_iff.mp formatted
  rw [adopts] at stated
  exact entry.isPrintable_of_statedInstant stated

namespace Report

-----------------------------------------------------------------------------------------
-- What a report holds
-----------------------------------------------------------------------------------------

section Process

variable {formatter : Formatter} {now : Calendar.Instant} {push : Bool} {input : List UInt8}

theorem emits_of_mem_records {record : Record}
    (member : record ∈ (process formatter now push input).1.records)
    : formatter.Emits now record := by
  rw [records_process] at member
  obtain ⟨⟨number, line⟩, _, recorded⟩ := List.mem_filterMap.mp member
  have outcome : formatLine formatter now push line = .ok (some record) := by
    cases made : formatLine formatter now push line with
    | error fault =>
        rw [made] at recorded
        cases recorded
    | ok found =>
        rw [made] at recorded
        exact congrArg Except.ok recorded
  cases push with
  | true => exact .pushed outcome
  | false => exact .plain outcome

/-- An input has no more entries than line feeds and one. -/
theorem total_le (formatter : Formatter) (now : Calendar.Instant) (push : Bool)
    (input : List UInt8)
    : (process formatter now push input).1.total ≤ input.length + 1 := by
  rw [total_process, ← List.length_map Prod.snd, map_snd_entryLines]
  calc
    _ ≤ ((input.splitOn 0x0A).map dropCarriageReturn).length := List.length_filter_le _ _
    _ = input.count 0x0A + 1 := by rw [List.length_map, length_splitOn]
    _ ≤ input.length + 1 := Nat.succ_le_succ List.count_le_length

theorem line_le {failure : Failure}
    (member : failure ∈ (process formatter now push input).1.errors)
    : failure.line ≤ input.length + 1 := by
  obtain ⟨before, line, fault, stands, _, _, rfl⟩ :=
    (mem_errors_iff formatter now push input).mp member
  obtain ⟨after, rfl, _⟩ := stands.ends
  have feeds : before.count 0x0A ≤ before.length := List.count_le_length
  simp only [List.length_append]
  omega

end Process

-----------------------------------------------------------------------------------------
-- Printing and reading
-----------------------------------------------------------------------------------------

/-- The counts and the line numbers of a report are words, and its records can be read back. -/
structure IsPrintable (report : Report) : Prop where
  total : report.total ≤ maxWord
  formatted : report.formatted ≤ maxWord
  dropped : report.dropped ≤ maxWord
  failed : report.failed ≤ maxWord
  lines : ∀ failure ∈ report.errors, failure.line ≤ maxWord
  instants : ∀ record ∈ report.records, record.timestamp.IsPrintable

/-- The report of an input whose length is a word is printable. -/
theorem isPrintable_process {formatter : Formatter} (adopts : formatter.useIncomingTimestamp = true)
    (now : Calendar.Instant) (push : Bool) {input : List UInt8} (counted : input.length < maxWord)
    : (process formatter now push input).1.IsPrintable := by
  have total := (total_le formatter now push input).trans counted
  obtain ⟨sum, _, _⟩ := (process_inStep formatter now push input).toAccounted
  exact {
    total
    formatted := by omega
    dropped := by omega
    failed := by omega
    lines := fun failure member => (line_le member).trans counted
    instants := fun record member => (emits_of_mem_records member).isPrintable adopts }

/-- A JSON value tells a failure. -/
structure TellsFailure (failure : Failure) (item : Json) : Prop where
  line : item.member? "line" = some (.num (.natural failure.line))
  kind : item.member? "kind" = some (.str failure.kind)
  error : item.member? "error" = some (.str failure.error)

/-- A JSON value tells a report: its counts, its failures in their order, and its records in their
order, each of which the element can be read as.
-/
structure TellsReport (report : Report) (value : Json) : Prop where
  total : value.member? "total" = some (.num (.natural report.total))
  formatted : value.member? "formatted" = some (.num (.natural report.formatted))
  dropped : value.member? "dropped" = some (.num (.natural report.dropped))
  failed : value.member? "failed" = some (.num (.natural report.failed))
  errors
    : ∃ items, value.member? "errors" = some (.arr items) ∧ report.errors.Forall₂ TellsFailure items
  records
    : ∃ items,
        value.member? "records" = some (.arr items)
        ∧ items.map (fun item => Record.decode (encode item.compact)) = report.records.map .ok

theorem readable_toJson {report : Report} (printable : report.IsPrintable)
    : Readable 127 report.toJson := by
  have count {n : Nat} (fits : n ≤ maxWord) : Readable 126 (.num (.natural n)) :=
    .num (decide_eq_true fits)
  have records : Readable 126 (.arr (report.records.map Record.toJson)) := by
    refine .arr fun item among => ?_
    obtain ⟨record, _, rfl⟩ := List.mem_map.mp among
    exact record.readable_toJson 123
  have errors : Readable 126 (.arr (report.errors.map failureJson)) := by
    refine .arr fun item among => ?_
    obtain ⟨failure, member, rfl⟩ := List.mem_map.mp among
    refine .obj ?_
    simp only [List.forall_mem_cons]
    exact ⟨.num (decide_eq_true (printable.lines failure member)), .str _ _, .str _ _, nofun⟩
  refine .obj ?_
  simp only [List.forall_mem_cons]
  exact ⟨count printable.total, count printable.formatted, count printable.dropped,
    count printable.failed, records, errors, nofun⟩

theorem tellsFailure_arranged (failure : Failure)
    : TellsFailure failure (failureJson failure).arranged where
  line := member?_arranged _ _
  kind := member?_arranged _ _
  error := member?_arranged _ _

theorem tellsReport_arranged {report : Report} (printable : report.IsPrintable)
    : report.TellsReport report.toJson.arranged where
  total := member?_arranged _ _
  formatted := member?_arranged _ _
  dropped := member?_arranged _ _
  failed := member?_arranged _ _
  errors := by
    refine ⟨_, member?_arranged _ _, ?_⟩
    rw [arrangedItems_eq, List.map_map, List.forall₂_map_right_iff, List.forall₂_same]
    exact fun failure _ => tellsFailure_arranged failure
  records := by
    refine ⟨_, member?_arranged _ _, ?_⟩
    rw [arrangedItems_eq, List.map_map, List.map_map]
    refine List.map_congr_left fun record member => ?_
    exact Record.decode_compact (printable.instants record member)

/-- The JSON form of a report is one object and a line feed. The object is a document that tells the
report, whatever stands in the lines, the labels and the errors. The bound on the input is one that
every buffer in memory keeps, and with it the counts are words.
-/
theorem process_reads_back (formatter : Formatter) (adopts : formatter.useIncomingTimestamp = true)
    (now : Calendar.Instant) (push : Bool) (input : List UInt8) (counted : input.length < maxWord)
    (text : String)
    : let report := (process formatter now push input).1
      ∃ document value,
        encode (writeReport .json text report.toJson) = document ++ [byteOf '\n']
        ∧ (∃ inner, document = byteOf '\x7b' :: (inner ++ [byteOf '\x7d']))
        ∧ parse document = .ok value
        ∧ report.TellsReport value := by
  intro report
  have printable := isPrintable_process adopts now push counted
  refine ⟨encode report.toJson.pretty, report.toJson.arranged, ?_, exists_encode_pretty_obj _,
    parse_pretty (readable_toJson printable), tellsReport_arranged printable⟩
  rw [writeReport, encode_append]
  rfl

/-- An offset carries an entry into the year 10000, the line behind it fails, and the report on both
is read back.
-/
theorem process_reads_back_year_10000
    : let formatter := { Formatter.default with useIncomingTimestamp := true }
      let input :=
        encode
          ("\x7b\"textPayload\":\"é\\\"\",\"timestamp\":\"9999-12-31T23:59:59.5-00:01\"\x7d"
            ++ "\n\x7b")
      let report := (process formatter .epoch false input).1
      report.records.map (·.timestamp.text) = ["+10000-01-01T00:00:59.500Z"]
      ∧ report.errors.map Failure.line = [2]
      ∧ ∃ document value,
          encode (writeReport .json "" report.toJson) = document ++ [byteOf '\n']
          ∧ (∃ inner, document = byteOf '\x7b' :: (inner ++ [byteOf '\x7d']))
          ∧ parse document = .ok value
          ∧ report.TellsReport value := by
  intro formatter input report
  refine ⟨by decide +kernel, by decide +kernel, ?_⟩
  exact process_reads_back formatter rfl .epoch false input (by decide +kernel) ""

end Report

end LogIntake
