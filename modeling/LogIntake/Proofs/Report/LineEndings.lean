import LogIntake.Proofs.Report.Lines

/-! Line endings. A carriage return in front of a line feed belongs to the line ending and not to
the entry, so an input has the same entries on the same lines whether its lines end with line feeds
alone or with both, and the same report.
-/

namespace LogIntake.Report

/-- The input with a carriage return in front of every line feed. -/
def withCarriageReturns (input : List UInt8) : List UInt8 :=
  input.flatMap fun byte => if byte = 0x0A then [0x0D, 0x0A] else [byte]

-----------------------------------------------------------------------------------------
-- Single lines
-----------------------------------------------------------------------------------------

/-- A line that goes on to no line feed is left as it is. -/
theorem withCarriageReturns_of_unbroken {line : List UInt8} (unbroken : 0x0A ∉ line)
    : withCarriageReturns line = line := by
  induction line with
  | nil => rfl
  | cons byte rest ih =>
      rw [List.mem_cons, not_or] at unbroken
      obtain ⟨noFeed, unbroken⟩ := unbroken
      rw [withCarriageReturns, List.flatMap_cons, if_neg (Ne.symm noFeed)]
      exact congrArg (byte :: ·) (ih unbroken)

/-- A line in front of a line feed gains a carriage return at its end, and the rest is treated
alike.
-/
theorem withCarriageReturns_append {line : List UInt8} (unbroken : 0x0A ∉ line)
    (rest : List UInt8)
    : withCarriageReturns (line ++ 0x0A :: rest)
      = (line ++ [0x0D]) ++ 0x0A :: withCarriageReturns rest := by
  have front := withCarriageReturns_of_unbroken unbroken
  rw [withCarriageReturns] at front ⊢
  rw [List.flatMap_append, List.flatMap_cons, front, if_pos rfl]
  simp [withCarriageReturns]

/-- A line that does not end with a carriage return is what is left of it with one. -/
theorem dropCarriageReturn_append {line : List UInt8} (bare : line.getLast? ≠ some 0x0D)
    : dropCarriageReturn (line ++ [0x0D]) = dropCarriageReturn line := by
  rw [dropCarriageReturn, dropCarriageReturn, if_neg bare, if_pos List.getLast?_concat,
    List.dropLast_concat]

/-- An input of one line has the entry on it, if there is one. -/
theorem entryLines_of_unbroken {line : List UInt8} (unbroken : 0x0A ∉ line)
    : entryLines line = (entryAt? line 1).toList := by
  rw [entryLines_eq, List.splitOn_eq_singleton unbroken, List.zipIdx_singleton,
    List.filterMap_cons, List.filterMap_nil]
  cases entryAt? line 1 <;> rfl

-----------------------------------------------------------------------------------------
-- Whole inputs
-----------------------------------------------------------------------------------------

/-- An input whose lines end with no carriage return of their own has the same entries under the
same numbers when every line feed is given one, by induction on its lines.
-/
theorem entryLines_withCarriageReturns {input : List UInt8}
    (bare : ∀ line ∈ input.splitOn 0x0A, line.getLast? ≠ some 0x0D)
    : entryLines (withCarriageReturns input) = entryLines input := by
  induction input using lines_induction with
  | last line unbroken => rw [withCarriageReturns_of_unbroken unbroken]
  | further line rest unbroken ih =>
      rw [List.splitOn_append_cons_self_of_not_mem unbroken, List.forall_mem_cons] at bare
      obtain ⟨bareLine, bareRest⟩ := bare
      have unbrokenToo : 0x0A ∉ line ++ [0x0D] := by simp [unbroken]
      have entry : entryLines (line ++ [0x0D]) = entryLines line := by
        rw [entryLines_of_unbroken unbroken, entryLines_of_unbroken unbrokenToo, entryAt?, entryAt?,
          dropCarriageReturn_append bareLine]
      rw [withCarriageReturns_append unbroken, entryLines_append, entryLines_append, entry,
        ih bareRest, List.count_eq_zero.mpr unbroken, List.count_eq_zero.mpr unbrokenToo]

/-- An input none of whose lines ends with a carriage return has the same report when every line
feed is given one: the same counts, the same records with the same lines, the same errors under the
same numbers, and the same counters. Witness: a run reads of an input only its numbered entries.
-/
theorem process_withCarriageReturns (formatter : Formatter) (now : Calendar.Instant) (push : Bool)
    (input : List UInt8) (bare : ∀ line ∈ input.splitOn 0x0A, line.getLast? ≠ some 0x0D)
    : process formatter now push (withCarriageReturns input)
      = process formatter now push input := by
  rw [process, process, entryLines_withCarriageReturns bare]

/-- An empty line, a blank line, a line that is no entry and a last line without an ending. -/
theorem process_withCarriageReturns_blank_lines
    : let input := Text.Utf8.encode "\n\x7b\"textPayload\":\"disk\"\x7d\n \t\nnone\n\x7b\x7d"
      (∀ line ∈ input.splitOn 0x0A, line.getLast? ≠ some 0x0D)
      ∧ withCarriageReturns input
        = Text.Utf8.encode "\r\n\x7b\"textPayload\":\"disk\"\x7d\r\n \t\r\nnone\r\n\x7b\x7d"
      ∧ process .default .epoch false (withCarriageReturns input)
        = process .default .epoch false input := by
  intro input
  have bare : ∀ line ∈ input.splitOn 0x0A, line.getLast? ≠ some 0x0D := by decide +kernel
  exact ⟨bare, by decide +kernel, process_withCarriageReturns .default .epoch false input bare⟩

end LogIntake.Report
