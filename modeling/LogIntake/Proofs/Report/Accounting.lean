import LogIntake.Proofs.Report.Lines

/-! The accounts of a run. Each entry is counted once as formatted, dropped or failed, in the report
and in the counters alike; records and errors are kept in the order of the lines they come from.
One entry leaves the accounts balanced, and so does a run over any number of them.
-/

namespace LogIntake

namespace Counters

theorem value_cons (counter other : Counter) (n : Nat) (rest : Counters)
    : value ((counter, n) :: rest) other = if other = counter then n else rest.value other := by
  unfold value
  by_cases same : other = counter
  · simp [same]
  · have test : (other == counter) = false := beq_eq_false_iff_ne.mpr same
    simp [List.lookup_cons, test, same]

/-- A step of a counter is seen under its own name only, by induction on the counters. -/
@[simp]
theorem value_increment (counters : Counters) (counter other : Counter)
    : (counters.increment counter).value other
      = counters.value other + if other = counter then 1 else 0 := by
  induction counters with
  | nil =>
      have untouched : value [] other = 0 := rfl
      rw [increment, value_cons, untouched, Nat.zero_add]
  | cons first rest ih =>
      obtain ⟨name, n⟩ := first
      unfold increment
      split
      case isTrue here =>
        subst here
        by_cases same : other = name <;> simp [value_cons, same]
      case isFalse elsewhere =>
        by_cases same : other = name
        · simp [value_cons, same, elsewhere]
        · simp only [value_cons, if_neg same, ih]

end Counters

namespace Report

/-- The record of an entry, if there is one. -/
def record? : Outcome → Option Record
  | .ok record => record
  | .error _ => none

/-- The failure of the entry on a line, if it failed. -/
def failure? (line : Nat) : Outcome → Option Failure
  | .ok _ => none
  | .error fault => some ⟨line, fault.kind, fault.message⟩

theorem failure?_eq_some_iff {line : Nat} {outcome : Outcome} {failure : Failure}
    : failure? line outcome = some failure
      ↔ ∃ fault, outcome = .error fault ∧ failure = ⟨line, fault.kind, fault.message⟩ := by
  cases outcome <;> simp [failure?, eq_comm]

-----------------------------------------------------------------------------------------
-- Balanced accounts
-----------------------------------------------------------------------------------------

/-- The counts of a report agree with each other and with what it lists. -/
structure Accounted (report : Report) : Prop where
  total : report.total = report.formatted + report.dropped + report.failed
  records : report.records.length = report.formatted
  errors : report.errors.length = report.failed

/-- The counters tell the same as the report, kind by kind for the failures. -/
structure InStep (report : Report) (counters : Counters) : Prop extends Accounted report where
  entries : counters.value .entries = report.total
  formatted : counters.value .formatted = report.formatted
  dropped : counters.value .dropped = report.dropped
  failed
    : ∀ reason,
        counters.value (.failed reason)
        = report.errors.countP fun failure => failure.kind = reason

/-- Nothing is counted before the first entry. -/
theorem InStep.empty : InStep empty [] :=
  ⟨⟨rfl, rfl, rfl⟩, rfl, rfl, rfl, fun _ => rfl⟩

/-- One entry keeps report and counters in step, whatever becomes of it. -/
theorem InStep.add {report : Report} {counters : Counters} (before : InStep report counters)
    (line : Nat) (outcome : Outcome)
    : InStep (add report line outcome) (count counters outcome) := by
  obtain ⟨⟨total, records, errors⟩, entries, formatted, dropped, failed⟩ := before
  cases outcome with
  | error fault =>
      refine ⟨⟨?_, ?_, ?_⟩, ?_, ?_, ?_, ?_⟩
      · simp only [Report.add]
        omega
      · exact records
      · simp [Report.add, errors]
      · simp [Report.add, count, entries]
      · simp [Report.add, count, formatted]
      · simp [Report.add, count, dropped]
      · intro reason
        simp [Report.add, count, failed, List.countP_cons, eq_comm]
  | ok kept =>
      cases kept with
      | none =>
          refine ⟨⟨?_, records, errors⟩, ?_, ?_, ?_, ?_⟩
          · simp only [Report.add]
            omega
          · simp [Report.add, count, entries]
          · simp [Report.add, count, formatted]
          · simp [Report.add, count, dropped]
          · simp [Report.add, count, failed]
      | some record =>
          refine ⟨⟨?_, ?_, errors⟩, ?_, ?_, ?_, ?_⟩
          · simp only [Report.add]
            omega
          · simp [Report.add, records]
          · simp [Report.add, count, entries]
          · simp [Report.add, count, formatted]
          · simp [Report.add, count, dropped]
          · simp [Report.add, count, failed]

/-- A run keeps report and counters in step, by induction on its outcomes. -/
theorem InStep.run {report : Report} {counters : Counters} (before : InStep report counters)
    (outcomes : List (Nat × Outcome))
    : InStep (outcomes.foldl (fun report outcome => Report.add report outcome.1 outcome.2) report)
        (outcomes.foldl (fun counters outcome => count counters outcome.2) counters) := by
  induction outcomes generalizing report counters with
  | nil => exact before
  | cons first rest ih => exact ih (before.add first.1 first.2)

/-- The accounts of a whole run are balanced. Witness: turning the lists around, which are built
from behind, changes no number.
-/
theorem ofOutcomes_inStep (outcomes : List (Nat × Outcome))
    : InStep (ofOutcomes outcomes).1 (ofOutcomes outcomes).2 := by
  obtain ⟨⟨total, records, errors⟩, entries, formatted, dropped, failed⟩ :=
    InStep.empty.run outcomes
  refine ⟨⟨total, ?_, ?_⟩, entries, formatted, dropped, ?_⟩
  · exact List.length_reverse.trans records
  · exact List.length_reverse.trans errors
  · exact fun reason => (failed reason).trans List.countP_reverse.symm

-----------------------------------------------------------------------------------------
-- What a report lists
-----------------------------------------------------------------------------------------

/-- A run counts its outcomes, and puts their records and failures in front of those before, by
induction on the outcomes.
-/
theorem foldl_add (outcomes : List (Nat × Outcome)) (report : Report)
    : let after :=
        outcomes.foldl (fun report outcome => Report.add report outcome.1 outcome.2) report
      after.total = report.total + outcomes.length
      ∧ after.records
        = (outcomes.filterMap fun outcome => record? outcome.2).reverse ++ report.records
      ∧ after.errors
        = (outcomes.filterMap fun outcome => failure? outcome.1 outcome.2).reverse
          ++ report.errors := by
  induction outcomes generalizing report with
  | nil => exact ⟨rfl, rfl, rfl⟩
  | cons first rest ih =>
      obtain ⟨total, records, errors⟩ := ih (Report.add report first.1 first.2)
      obtain ⟨line, outcome⟩ := first
      refine ⟨?_, ?_, ?_⟩
      · rw [List.foldl_cons, total, List.length_cons]
        rcases outcome with fault | _ | record <;> simp only [Report.add] <;> omega
      · rw [List.foldl_cons, records, List.filterMap_cons]
        rcases outcome with fault | _ | record <;> simp [Report.add, record?]
      · rw [List.foldl_cons, errors, List.filterMap_cons]
        rcases outcome with fault | _ | record <;> simp [Report.add, failure?]

theorem total_ofOutcomes (outcomes : List (Nat × Outcome))
    : (ofOutcomes outcomes).1.total = outcomes.length := by
  have gathered := (foldl_add outcomes empty).1
  rwa [show empty.total = 0 from rfl, Nat.zero_add] at gathered

/-- The records of a report are those of its outcomes in their order. -/
theorem records_ofOutcomes (outcomes : List (Nat × Outcome))
    : (ofOutcomes outcomes).1.records = outcomes.filterMap fun outcome => record? outcome.2 := by
  have gathered := (foldl_add outcomes empty).2.1
  rw [show empty.records = [] from rfl, List.append_nil] at gathered
  exact (congrArg List.reverse gathered).trans (List.reverse_reverse _)

/-- The errors of a report are the failures of its outcomes in their order. -/
theorem errors_ofOutcomes (outcomes : List (Nat × Outcome))
    : (ofOutcomes outcomes).1.errors
      = outcomes.filterMap fun outcome => failure? outcome.1 outcome.2 := by
  have gathered := (foldl_add outcomes empty).2.2
  rw [show empty.errors = [] from rfl, List.append_nil] at gathered
  exact (congrArg List.reverse gathered).trans (List.reverse_reverse _)

-----------------------------------------------------------------------------------------
-- A whole input
-----------------------------------------------------------------------------------------

section Process

variable (formatter : Formatter) (now : Calendar.Instant) (push : Bool) (input : List UInt8)

/-- The accounts of every input are balanced. -/
theorem process_inStep
    : InStep (process formatter now push input).1 (process formatter now push input).2 :=
  ofOutcomes_inStep _

theorem total_process
    : (process formatter now push input).1.total = (entryLines input).length :=
  (total_ofOutcomes _).trans (List.length_map _)

theorem records_process
    : (process formatter now push input).1.records
      = (entryLines input).filterMap fun entry =>
          record? (formatLine formatter now push entry.2) :=
  (records_ofOutcomes _).trans List.filterMap_map

theorem errors_process
    : (process formatter now push input).1.errors
      = (entryLines input).filterMap fun entry =>
          failure? entry.1 (formatLine formatter now push entry.2) :=
  (errors_ofOutcomes _).trans List.filterMap_map

/-- The lines of the errors increase like those of the entries. -/
theorem errors_increasing
    : (process formatter now push input).1.errors.Pairwise
        fun first second => first.line < second.line := by
  rw [errors_process, List.pairwise_filterMap]
  refine (entryLines_increasing input).imp ?_
  intro first second before failure failed other otherFailed
  obtain ⟨_, _, rfl⟩ := failure?_eq_some_iff.mp failed
  obtain ⟨_, _, rfl⟩ := failure?_eq_some_iff.mp otherFailed
  exact before

/-- An error belongs to a line that stands in the input and fails. -/
theorem mem_errors_iff {failure : Failure}
    : failure ∈ (process formatter now push input).1.errors
      ↔ ∃ before line fault,
          IsLineAfter input before line
          ∧ (dropCarriageReturn line).all isBlank = false
          ∧ formatLine formatter now push (dropCarriageReturn line) = .error fault
          ∧ failure = ⟨1 + before.count 0x0A, fault.kind, fault.message⟩ := by
  simp only [errors_process, List.mem_filterMap, Prod.exists, mem_entryLines_iff,
    failure?_eq_some_iff]
  constructor
  · rintro ⟨_, _, ⟨before, line, stands, blank, rfl, rfl⟩, fault, fails, rfl⟩
    exact ⟨before, line, fault, stands, blank, fails, rfl⟩
  · rintro ⟨before, line, fault, stands, blank, fails, rfl⟩
    exact ⟨_, _, ⟨before, line, stands, blank, rfl, rfl⟩, fault, fails, rfl⟩

end Process

/-- Every line that is not blank is accounted for once. The counts of the report add up to the
number of these lines; its records are those of the lines in their order; its errors belong to the
lines that fail, each with one more than the number of line feeds before it, and in increasing
order; and the counters tell the same as the report.
-/
theorem process_accounts_for_lines (formatter : Formatter) (now : Calendar.Instant) (push : Bool)
    (input : List UInt8)
    : let report := (process formatter now push input).1
      let counters := (process formatter now push input).2
      let entries :=
        ((input.splitOn 0x0A).map dropCarriageReturn).filter fun line => !line.all isBlank
      (report.total = report.formatted + report.dropped + report.failed
        ∧ report.total = entries.length)
      ∧ (report.records.length = report.formatted
        ∧ report.records
          = entries.filterMap fun line => record? (formatLine formatter now push line))
      ∧ (report.errors.length = report.failed
        ∧ (report.errors.Pairwise fun first second => first.line < second.line)
        ∧ ∀ failure,
            failure ∈ report.errors
            ↔ ∃ before line fault,
                IsLineAfter input before line
                ∧ (dropCarriageReturn line).all isBlank = false
                ∧ formatLine formatter now push (dropCarriageReturn line) = .error fault
                ∧ failure = ⟨1 + before.count 0x0A, fault.kind, fault.message⟩)
      ∧ counters.value .entries = report.total
      ∧ counters.value .formatted = report.formatted
      ∧ counters.value .dropped = report.dropped
      ∧ ∀ reason,
          counters.value (.failed reason)
          = report.errors.countP fun failure => failure.kind = reason := by
  intro report counters entries
  have inStep : InStep report counters := process_inStep formatter now push input
  have lines : entries = (entryLines input).map Prod.snd := (map_snd_entryLines input).symm
  refine ⟨⟨inStep.total, ?_⟩, ⟨inStep.records, ?_⟩,
    ⟨inStep.errors, errors_increasing formatter now push input, fun failure => ?_⟩,
    inStep.entries, inStep.formatted, inStep.dropped, inStep.failed⟩
  · rw [lines, List.length_map]
    exact total_process formatter now push input
  · rw [lines, List.filterMap_map]
    exact records_process formatter now push input
  · exact mem_errors_iff formatter now push input

end Report

end LogIntake
