import LogIntake.Proofs.Calendar.PrintedInstant
import LogIntake.Proofs.Text.Delimited

/-! Instants told apart by their text. Each number in the text of an instant ends at a mark that is
no digit, and the whole ends at its last letter, so that the text tells the instant even in front of
other text.
-/

namespace LogIntake.Calendar

open Text

/-- A number of some width ends at a mark that is no digit. -/
theorem padded_selfDelimiting (width : Nat) {mark : Char} (noDigit : mark.isDigit = false)
    : SelfDelimiting (fun _ => True) fun n => padded width n ++ [mark] where
  cut := by
    intro m n rest behind _ _ same
    have absent (n : Nat) : mark ∉ padded width n := fun member =>
      Bool.false_ne_true (noDigit.symm.trans (isDigit_of_mem_padded member))
    obtain ⟨digits, sameRest⟩ := (SelfDelimiting.marked mark).cut (absent m) (absent n) same
    have value := congrArg digitsValue digits
    rw [digitsValue_padded, digitsValue_padded] at value
    exact ⟨value, sameRest⟩

/-- How a year is written: four digits alone, or more of them behind a sign. -/
inductive WritesYear : Int → List Char → Prop
  | bare {year : Nat} : WritesYear year (padded 4 year)
  | before {year : Nat} (positive : 0 < year) : WritesYear (-year) ('-' :: padded 4 year)
  | behind {year : Nat} : WritesYear year ('+' :: padded 4 year)

theorem writesYear (year : Int) : WritesYear year (yearText year) := by
  unfold yearText
  split_ifs with short before
  · have value : (year.toNat : Int) = year := Int.toNat_of_nonneg short.1
    have bare : WritesYear (year.toNat : Int) (padded 4 year.toNat) := .bare
    rwa [value] at bare
  · have value : -(year.natAbs : Int) = year := by omega
    have signed : WritesYear (-(year.natAbs : Int)) ('-' :: padded 4 year.natAbs) :=
      .before (by omega)
    rwa [value] at signed
  · have value : (year.natAbs : Int) = year := by omega
    have signed : WritesYear (year.natAbs : Int) ('+' :: padded 4 year.natAbs) := .behind
    rwa [value] at signed

/-- A sign is no digit, so a year with a sign is none without one. -/
theorem padded_append_ne_cons {width n : Nat} {rest behind : List Char} {sign : Char}
    (noDigit : sign.isDigit = false)
    : padded width n ++ rest ≠ sign :: behind := by
  obtain ⟨c, more, text, digit⟩ := exists_padded_eq_cons width n
  refine append_ne_cons ⟨c, more, text, ?_⟩
  intro equal
  subst equal
  exact Bool.false_ne_true (noDigit.symm.trans digit)

/-- A year ends at the hyphen behind it, although it may begin with one. -/
theorem yearText_selfDelimiting
    : SelfDelimiting (fun _ => True) fun year => yearText year ++ ['-'] where
  cut := by
    intro first second rest behind _ _ same
    have digits := padded_selfDelimiting 4 (show '-'.isDigit = false from rfl)
    have firstWritten := writesYear first
    have secondWritten := writesYear second
    generalize yearText first = print at firstWritten same
    generalize yearText second = other at secondWritten same
    cases firstWritten with
    | bare =>
        cases secondWritten with
        | bare =>
            obtain ⟨rfl, sameRest⟩ := digits.cut trivial trivial same
            exact ⟨rfl, sameRest⟩
        | before | behind =>
            rw [List.append_assoc] at same
            exact absurd same (padded_append_ne_cons rfl)
    | before =>
        cases secondWritten with
        | bare =>
            rw [List.append_assoc (padded 4 _)] at same
            exact absurd same.symm (padded_append_ne_cons rfl)
        | before =>
            obtain ⟨rfl, sameRest⟩ := digits.cut trivial trivial (List.cons.inj same).2
            exact ⟨rfl, sameRest⟩
        | behind => exact absurd (List.cons.inj same).1 (by decide)
    | behind =>
        cases secondWritten with
        | bare =>
            rw [List.append_assoc (padded 4 _)] at same
            exact absurd same.symm (padded_append_ne_cons rfl)
        | before => exact absurd (List.cons.inj same).1 (by decide)
        | behind =>
            obtain ⟨rfl, sameRest⟩ := digits.cut trivial trivial (List.cons.inj same).2
            exact ⟨rfl, sameRest⟩

/-- However many digits a fraction has, it ends at the letter behind it. -/
theorem fractionText_selfDelimiting
    : SelfDelimiting (· < nanosPerSecond) fun nanos => fractionText nanos ++ ['Z'] where
  cut := by
    intro first second rest behind below otherBelow same
    simp only [List.append_assoc, List.singleton_append] at same
    have value := takeFraction_fractionText below rest
    rw [same, takeFraction_fractionText otherBelow behind] at value
    obtain ⟨sameNanos, sameRest⟩ := Prod.mk.inj (Except.ok.inj value)
    exact ⟨sameNanos.symm, (List.cons.inj sameRest).2.symm⟩

theorem Date.eq_of_parts {date other : Date} (year : date.year = other.year)
    (month : date.month = other.month) (day : date.day = other.day)
    : date = other := by
  cases date
  cases other
  rw [Date.mk.injEq]
  exact ⟨year, month, day⟩

/-- The text of an instant within its second tells the instant, whatever follows it. -/
theorem chars_selfDelimiting
    : SelfDelimiting (fun instant : Instant => instant.nanos < nanosPerSecond) Instant.chars where
  cut := by
    intro first second rest behind below otherBelow same
    have own := ofLocal_date first
    have otherOwn := ofLocal_date second
    rw [chars_eq below, chars_eq otherBelow] at same
    simp only [timeText, List.append_assoc, List.cons_append] at same
    have number {mark : Char} (noDigit : mark.isDigit = false) := padded_selfDelimiting 2 noDigit
    obtain ⟨year, same⟩ := yearText_selfDelimiting.cut_mark trivial trivial same
    obtain ⟨month, same⟩ := (number rfl).cut_mark trivial trivial same
    obtain ⟨day, same⟩ := (number rfl).cut_mark trivial trivial same
    obtain ⟨hour, same⟩ := (number rfl).cut_mark trivial trivial same
    obtain ⟨minute, same⟩ := (number rfl).cut_mark trivial trivial same
    -- No mark stands behind the seconds, but they have two digits.
    have width (time : Nat) : (padded 2 (time % 60)).length = 2 :=
      length_padded (by decide) (by omega)
    obtain ⟨digits, same⟩ := List.append_inj same ((width _).trans (width _).symm)
    have value := congrArg digitsValue digits
    rw [digitsValue_padded, digitsValue_padded] at value
    obtain ⟨nanos, same⟩ := fractionText_selfDelimiting.cut_mark below otherBelow same
    refine ⟨?_, same⟩
    rw [← own, ← otherOwn, Date.eq_of_parts year month day, hour, minute, value, nanos]

end LogIntake.Calendar
