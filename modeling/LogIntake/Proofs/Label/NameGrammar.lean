import LogIntake.Label.Name

/-! The grammar of label names, said without the checks that decide it. A name begins with an
ASCII letter or an underscore and goes on with ASCII letters, digits and underscores; the name
of a record's label does not begin with two underscores besides.
-/

namespace LogIntake.Label

/-- The characters that may begin a name. -/
def BeginsName (c : Char) : Prop :=
  ('a' ≤ c ∧ c ≤ 'z') ∨ ('A' ≤ c ∧ c ≤ 'Z') ∨ c = '_'

/-- The characters that may follow in a name. -/
def ContinuesName (c : Char) : Prop :=
  BeginsName c ∨ ('0' ≤ c ∧ c ≤ '9')

/-- The texts that are label names. -/
def IsLabelName (name : String) : Prop :=
  ∃ first rest,
    name.toList = first :: rest ∧ BeginsName first ∧ ∀ c ∈ rest, ContinuesName c

/-- The texts that the pipeline reserves for itself. -/
def IsReserved (name : String) : Prop :=
  ['_', '_'] <+: name.toList

theorem isNameStart_iff {c : Char} : isNameStart c = true ↔ BeginsName c := by
  have alpha : c.isAlpha = (c.isUpper || c.isLower) := rfl
  have upper : c.isUpper = decide (c.val ≥ 'A'.val ∧ c.val ≤ 'Z'.val) := rfl
  have lower : c.isLower = (decide (c.val ≥ 'a'.val) && decide (c.val ≤ 'z'.val)) := rfl
  simp only [isNameStart, alpha, upper, lower, BeginsName,
    Bool.or_eq_true, Bool.and_eq_true, decide_eq_true_eq, Char.le_def, ge_iff_le]
  constructor
  · rintro ((upper | lower) | underscore)
    · exact Or.inr (Or.inl upper)
    · exact Or.inl lower
    · exact Or.inr (Or.inr underscore)
  · rintro (lower | upper | underscore)
    · exact Or.inl (Or.inr lower)
    · exact Or.inl (Or.inl upper)
    · exact Or.inr underscore

theorem isNameChar_iff {c : Char} : isNameChar c = true ↔ ContinuesName c := by
  have digit : c.isDigit = true ↔ '0' ≤ c ∧ c ≤ '9' := by
    simp only [Char.isDigit, Bool.and_eq_true, decide_eq_true_eq, Char.le_def, ge_iff_le]
  rw [ContinuesName, ← isNameStart_iff, ← digit]
  simp only [isNameChar, isNameStart, Char.isAlphanum, Bool.or_eq_true]
  exact or_right_comm

/-- The check for names decides the grammar, by cases on the first character. -/
theorem isValidName_iff {name : String} : isValidName name = true ↔ IsLabelName name := by
  unfold isValidName IsLabelName
  cases name.toList with
  | nil => simp
  | cons first rest =>
      rw [Bool.and_eq_true, isNameStart_iff, List.all_eq_true]
      simp only [isNameChar_iff]
      constructor
      · rintro ⟨head, tail⟩
        exact ⟨first, rest, rfl, head, tail⟩
      · rintro ⟨_, _, chars, head, tail⟩
        cases chars
        exact ⟨head, tail⟩

theorem IsLabelName.ne_empty {name : String} (label : IsLabelName name) : name ≠ "" := by
  obtain ⟨first, rest, chars, _⟩ := label
  rintro rfl
  cases chars

/-- All characters of a label name may stand in names. -/
theorem IsLabelName.continues {name : String} (label : IsLabelName name)
    : ∀ c ∈ name.toList, ContinuesName c := by
  obtain ⟨first, rest, chars, begins, continues⟩ := label
  rw [chars]
  exact List.forall_mem_cons.mpr ⟨.inl begins, continues⟩

instance (c : Char) : Decidable (ContinuesName c) :=
  decidable_of_iff _ isNameChar_iff

theorem ContinuesName.ne {c other : Char} (continues : ContinuesName c)
    (refused : ¬ContinuesName other)
    : c ≠ other :=
  fun same => refused (same ▸ continues)

theorem not_continuesName_dollar : ¬ContinuesName '$' := by
  decide

/-- A label name refers to no group. -/
theorem IsLabelName.dollar_notMem {name : String} (label : IsLabelName name)
    : '$' ∉ name.toList := by
  exact fun member => not_continuesName_dollar (label.continues '$' member)

/-- The check for internal names decides whether the name is reserved. -/
theorem isInternal_iff {name : String} : isInternal name = true ↔ IsReserved name := by
  unfold isInternal IsReserved
  split
  case h_1 rest chars => simp [chars]
  case h_2 other =>
    simp only [Bool.false_eq_true, false_iff]
    rintro ⟨rest, chars⟩
    exact other rest chars.symm

instance (name : String) : Decidable (IsLabelName name) :=
  decidable_of_iff _ isValidName_iff

instance (name : String) : Decidable (IsReserved name) :=
  decidable_of_iff _ isInternal_iff

/-- A record's label has a name that the grammar admits and nobody reserves. -/
theorem isRecordName_iff {name : String}
    : isRecordName name = true ↔ IsLabelName name ∧ ¬ IsReserved name := by
  rw [isRecordName, Bool.and_eq_true, Bool.not_eq_true', ← Bool.not_eq_true, isInternal_iff,
    isValidName_iff, and_comm]

end LogIntake.Label
