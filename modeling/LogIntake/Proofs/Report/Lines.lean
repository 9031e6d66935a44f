import LogIntake.Report

/-! The lines of an input. They are what stands between its line feeds, each of them is found behind
some bytes of the input, and its number is one more than the count of the line feeds among these.
Two inputs with a line feed between them have the lines of both.
-/

namespace LogIntake.Report

/-- A line stands in an input behind the given bytes: they are none or end with a line feed, the
line has no line feed, and behind it the input ends or goes on with one.
-/
structure IsLineAfter (input before line : List UInt8) : Prop where
  unbroken : 0x0A ∉ line
  starts : before = [] ∨ ∃ front, before = front ++ [0x0A]
  ends : ∃ after, input = before ++ line ++ after ∧ (after = [] ∨ ∃ rest, after = 0x0A :: rest)

-----------------------------------------------------------------------------------------
-- Splitting
-----------------------------------------------------------------------------------------

theorem splitLines_eq_splitOn (input : List UInt8) : splitLines input = input.splitOn 0x0A := by
  induction input with
  | nil => rfl
  | cons byte rest ih =>
      obtain ⟨line, lines, split⟩ := List.exists_cons_of_ne_nil (List.splitOn_ne_nil 0x0A rest)
      rw [splitLines, ih, List.splitOn_cons_eq_if_modifyHead, split]
      by_cases feed : byte = 0x0A <;> simp [feed]

/-- An input is a line without a line feed, or such a line followed by a line feed and an input. -/
theorem lines_induction {motive : List UInt8 → Prop}
    (last : ∀ line, 0x0A ∉ line → motive line)
    (further : ∀ line rest, 0x0A ∉ line → motive rest → motive (line ++ 0x0A :: rest))
    (input : List UInt8)
    : motive input := by
  by_cases broken : 0x0A ∈ input
  · obtain ⟨line, rest, split, unbroken⟩ := List.eq_append_cons_of_mem broken
    rw [split]
    exact further line rest unbroken (lines_induction last further rest)
  · exact last input broken
termination_by input.length
decreasing_by
  rw [split, List.length_append, List.length_cons]
  omega

/-- There is one line more than there are line feeds. -/
theorem length_splitOn (input : List UInt8)
    : (input.splitOn 0x0A).length = input.count 0x0A + 1 := by
  induction input using lines_induction with
  | last line unbroken =>
      rw [List.splitOn_eq_singleton unbroken, List.count_eq_zero.mpr unbroken]
      rfl
  | further line rest unbroken ih =>
      rw [List.splitOn_append_cons_self_of_not_mem unbroken, List.length_cons, ih,
        List.count_append, List.count_eq_zero.mpr unbroken, List.count_cons_self, Nat.zero_add]

/-- What stands in front of the end of an input or of a line feed, and has none, is the first
line.
-/
theorem exists_splitOn_eq_cons {line after : List UInt8} (unbroken : 0x0A ∉ line)
    (ends : after = [] ∨ ∃ rest, after = 0x0A :: rest)
    : ∃ lines, (line ++ after).splitOn 0x0A = line :: lines := by
  rcases ends with rfl | ⟨rest, rfl⟩
  · exact ⟨[], by rw [List.append_nil, List.splitOn_eq_singleton unbroken]⟩
  · exact ⟨_, List.splitOn_append_cons_self_of_not_mem unbroken rest⟩

/-- The numbered lines of an input are the lines that stand in it, numbered by the line feeds before
them.
-/
theorem mem_zipIdx_splitOn_iff {input line : List UInt8} {start number : Nat}
    : (line, number) ∈ (input.splitOn 0x0A).zipIdx start
      ↔ ∃ before, IsLineAfter input before line ∧ number = start + before.count 0x0A := by
  constructor
  · induction input using lines_induction generalizing start with
    | last input unbroken =>
        rw [List.splitOn_eq_singleton unbroken, List.zipIdx_singleton, List.mem_singleton]
        rintro ⟨rfl, rfl⟩
        exact ⟨[], ⟨unbroken, .inl rfl, [], by simp, .inl rfl⟩, rfl⟩
    | further first rest unbroken ih =>
        rw [List.splitOn_append_cons_self_of_not_mem unbroken, List.zipIdx_cons, List.mem_cons]
        rintro (head | later)
        · cases head
          exact ⟨[], ⟨unbroken, .inl rfl, 0x0A :: rest, rfl, .inr ⟨rest, rfl⟩⟩, rfl⟩
        · obtain ⟨before, ⟨whole, starts, after, rfl, ends⟩, rfl⟩ := ih later
          refine ⟨first ++ 0x0A :: before, ⟨whole, .inr ?_, after, by simp, ends⟩, ?_⟩
          · rcases starts with rfl | ⟨front, rfl⟩
            · exact ⟨first, rfl⟩
            · exact ⟨first ++ 0x0A :: front, by simp⟩
          · rw [List.count_append, List.count_eq_zero.mpr unbroken, List.count_cons_self]
            omega
  · rintro ⟨before, ⟨unbroken, starts, after, rfl, ends⟩, rfl⟩
    obtain ⟨lines, split⟩ := exists_splitOn_eq_cons unbroken ends
    rcases starts with rfl | ⟨front, rfl⟩
    · simp [split, List.zipIdx_cons]
    · rw [List.append_assoc, List.append_assoc, List.singleton_append,
        List.splitOn_append_cons_self, split, List.zipIdx_append, List.zipIdx_cons,
        length_splitOn, List.count_append, List.count_singleton_self]
      exact List.mem_append_right _ List.mem_cons_self

-----------------------------------------------------------------------------------------
-- Lines with entries
-----------------------------------------------------------------------------------------

/-- The entry on a line with its number, if the line is not blank. -/
def entryAt? (line : List UInt8) (number : Nat) : Option (Nat × List UInt8) :=
  if (dropCarriageReturn line).all isBlank then none else some (number, dropCarriageReturn line)

theorem entryAt?_eq_some_iff {line entry : List UInt8} {place number : Nat}
    : entryAt? line place = some (number, entry)
      ↔ (dropCarriageReturn line).all isBlank = false
        ∧ number = place
        ∧ entry = dropCarriageReturn line := by
  unfold entryAt?
  cases (dropCarriageReturn line).all isBlank <;> simp [eq_comm]

theorem entryLines_eq (input : List UInt8)
    : entryLines input
      = ((input.splitOn 0x0A).zipIdx 1).filterMap fun numbered =>
          entryAt? numbered.1 numbered.2 := by
  rw [entryLines, splitLines_eq_splitOn]
  simp only [List.zipIdx_map, List.filterMap_map]
  rfl

/-- The entries of an input are its lines that are not blank, without a carriage return at their
end.
-/
theorem map_snd_entryLines (input : List UInt8)
    : (entryLines input).map Prod.snd
      = ((input.splitOn 0x0A).map dropCarriageReturn).filter fun line => !line.all isBlank := by
  rw [entryLines_eq]
  generalize 1 = start
  induction input.splitOn 0x0A generalizing start with
  | nil => rfl
  | cons line lines ih =>
      rw [List.zipIdx_cons, List.filterMap_cons, List.map_cons, List.filter_cons, ← ih (start + 1),
        entryAt?]
      cases (dropCarriageReturn line).all isBlank <;> rfl

/-- An entry with its number is a line that stands in the input and is not blank. -/
theorem mem_entryLines_iff {input entry : List UInt8} {number : Nat}
    : (number, entry) ∈ entryLines input
      ↔ ∃ before line,
          IsLineAfter input before line
          ∧ (dropCarriageReturn line).all isBlank = false
          ∧ number = 1 + before.count 0x0A
          ∧ entry = dropCarriageReturn line := by
  simp only [entryLines_eq, List.mem_filterMap, Prod.exists, mem_zipIdx_splitOn_iff,
    entryAt?_eq_some_iff]
  constructor
  · rintro ⟨line, _, ⟨before, stands, rfl⟩, blank, rfl, rfl⟩
    exact ⟨before, line, stands, blank, rfl, rfl⟩
  · rintro ⟨before, line, stands, blank, rfl, rfl⟩
    exact ⟨line, _, ⟨before, stands, rfl⟩, blank, rfl, rfl⟩

/-- The numbers of the entries increase, since the lines are numbered in their order. -/
theorem entryLines_increasing (input : List UInt8)
    : (entryLines input).Pairwise fun first second => first.1 < second.1 := by
  have places
      : ((input.splitOn 0x0A).zipIdx 1).Pairwise fun first second => first.2 < second.2 := by
    rw [← List.pairwise_map (f := Prod.snd), List.zipIdx_map_snd]
    exact List.pairwise_lt_range'
  rw [entryLines_eq, List.pairwise_filterMap]
  refine places.imp ?_
  rintro _ _ before ⟨number, entry⟩ kept ⟨later, other⟩ otherKept
  rw [(entryAt?_eq_some_iff.mp kept).2.1, (entryAt?_eq_some_iff.mp otherKept).2.1]
  exact before

/-- The entries behind a line feed are those of the rest, with their numbers counted on. -/
theorem entryLines_append (first second : List UInt8)
    : entryLines (first ++ 0x0A :: second)
      = entryLines first
        ++ (entryLines second).map fun entry =>
            (entry.1 + (first.count 0x0A + 1), entry.2) := by
  have moved (numbered : List UInt8 × Nat)
      : entryAt? numbered.1 (numbered.2 + (first.count 0x0A + 1))
        = (entryAt? numbered.1 numbered.2).map fun entry =>
            (entry.1 + (first.count 0x0A + 1), entry.2) := by
    unfold entryAt?
    cases (dropCarriageReturn numbered.1).all isBlank <;> rfl
  rw [entryLines_eq, entryLines_eq, entryLines_eq, List.splitOn_append_cons_self,
    List.zipIdx_append, List.filterMap_append, length_splitOn, List.map_filterMap,
    Nat.add_comm 1, ← List.map_snd_add_zipIdx_eq_zipIdx, List.filterMap_map]
  exact congrArg _ (congrArg (List.filterMap · _) (funext moved))

end LogIntake.Report
