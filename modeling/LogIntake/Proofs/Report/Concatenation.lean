import LogIntake.Proofs.Report.Accounting

/-! Reports on inputs that are put together. A line feed between two inputs makes one input whose
report is that of the first followed by that of the second, so what stands on a line has no
influence on what the report says of any other line.
-/

namespace LogIntake

/-- The failure with its line counted on. -/
def Failure.movedBy (lines : Nat) (failure : Failure) : Failure :=
  { failure with line := failure.line + lines }

namespace Report

/-- A report followed by a second one, on lines that stand a number of lines further on. -/
def followedBy (first : Report) (lines : Nat) (second : Report) : Report where
  total := first.total + second.total
  formatted := first.formatted + second.formatted
  dropped := first.dropped + second.dropped
  failed := first.failed + second.failed
  records := first.records ++ second.records
  errors := first.errors ++ second.errors.map (Failure.movedBy lines)

/-- Balanced accounts stay balanced when a report follows another. -/
theorem Accounted.followedBy {first second : Report} (balanced : Accounted first)
    (other : Accounted second) (lines : Nat)
    : Accounted (first.followedBy lines second) := by
  obtain ⟨total, records, errors⟩ := balanced
  obtain ⟨otherTotal, otherRecords, otherErrors⟩ := other
  refine ⟨?_, ?_, ?_⟩
  · simp only [Report.followedBy]
    omega
  · rw [Report.followedBy, List.length_append, records, otherRecords]
  · rw [Report.followedBy, List.length_append, List.length_map, errors, otherErrors]

/-- A balanced report is determined by its total and its two lists. -/
theorem Accounted.ext {left right : Report} (balanced : Accounted left)
    (other : Accounted right) (total : left.total = right.total)
    (records : left.records = right.records) (errors : left.errors = right.errors)
    : left = right := by
  have formatted : left.formatted = right.formatted := by
    rw [← balanced.records, ← other.records, records]
  have failed : left.failed = right.failed := by
    rw [← balanced.errors, ← other.errors, errors]
  have dropped : left.dropped = right.dropped := by
    have sum := balanced.total
    have otherSum := other.total
    omega
  cases left
  cases right
  simp only at total formatted dropped failed records errors
  subst total formatted dropped failed records errors
  rfl

theorem failure?_movedBy (lines line : Nat) (outcome : Outcome)
    : failure? (line + lines) outcome = (failure? line outcome).map (Failure.movedBy lines) := by
  cases outcome <;> rfl

/-- The report on two inputs with a line feed between them is the report on the first followed by
the report on the second, whose lines are counted on by the line feeds in front of them. Hence
whatever stands between two parts of an input adds its own report, and leaves the other two as they
are but for the numbers of the lines behind it. Witness: the entries of the whole are those of the
first input and, with their numbers counted on, those of the second.
-/
theorem process_append (formatter : Formatter) (now : Calendar.Instant) (push : Bool)
    : (∀ first second : List UInt8,
        (process formatter now push (first ++ 0x0A :: second)).1
        = (process formatter now push first).1.followedBy (first.count 0x0A + 1)
            (process formatter now push second).1)
      ∧ ∀ front middle back : List UInt8,
          (process formatter now push (front ++ 0x0A :: (middle ++ 0x0A :: back))).1
          = (process formatter now push front).1.followedBy (front.count 0x0A + 1)
              ((process formatter now push middle).1.followedBy (middle.count 0x0A + 1)
                (process formatter now push back).1) := by
  have joined (first second : List UInt8)
      : (process formatter now push (first ++ 0x0A :: second)).1
        = (process formatter now push first).1.followedBy (first.count 0x0A + 1)
            (process formatter now push second).1 := by
    have balanced (input : List UInt8) : Accounted (process formatter now push input).1 :=
      (process_inStep formatter now push input).toAccounted
    apply (balanced _).ext ((balanced first).followedBy (balanced second) _)
    · rw [followedBy, total_process, total_process, total_process, entryLines_append,
        List.length_append, List.length_map]
    · rw [followedBy, records_process, records_process, records_process, entryLines_append,
        List.filterMap_append, List.filterMap_map]
      rfl
    · rw [followedBy, errors_process, errors_process, errors_process, entryLines_append,
        List.filterMap_append, List.filterMap_map, List.map_filterMap]
      simp only [← failure?_movedBy]
      rfl
  refine ⟨joined, ?_⟩
  intro front middle back
  rw [joined, joined]

end Report

end LogIntake
