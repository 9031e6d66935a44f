import LogIntake.Calendar.Layout
import LogIntake.Proofs.Calendar.PrintedInstant

/-! The instants that the strict layout can state. Its years have four digits, and an offset moves
an instant by less than a day, so every stated instant is printed with a date that can be read back.
-/

namespace LogIntake.Calendar

theorem digitValue_le_nine {byte : UInt8} (digit : isDigit byte = true) : digitValue byte ≤ 9 := by
  simp only [isDigit, Bool.and_eq_true, decide_eq_true_eq, UInt8.le_iff_toNat_le] at digit
  exact Nat.sub_le_of_le_add digit.2

/-- A number is below the power of ten that its length tells, by induction on its digits. -/
theorem number_lt {digits : List UInt8} (all : ∀ byte ∈ digits, isDigit byte = true)
    : number digits < 10 ^ digits.length := by
  have counted (value : Nat)
      : digits.foldl (fun value digit => value * 10 + digitValue digit) value
        < (value + 1) * 10 ^ digits.length := by
    induction digits generalizing value with
    | nil => simp
    | cons byte digits ih =>
        obtain ⟨first, rest⟩ := List.forall_mem_cons.mp all
        have single := digitValue_le_nine first
        calc
          _ < (value * 10 + digitValue byte + 1) * 10 ^ digits.length := ih rest _
          _ ≤ ((value + 1) * 10) * 10 ^ digits.length := Nat.mul_le_mul_right _ (by omega)
          _ = (value + 1) * 10 ^ (byte :: digits).length := by
            rw [List.length_cons, Nat.pow_succ']
            ring
  have total := counted 0
  rwa [Nat.zero_add, Nat.one_mul] at total

theorem readNumber_lt {digits : List UInt8} {n : Nat} (read : readNumber digits = .ok n)
    : n < 10 ^ digits.length := by
  unfold readNumber at read
  split at read
  case isTrue all =>
    cases read
    exact number_lt (List.all_eq_true.mp all)
  case isFalse => cases read

theorem number_take_lt {digits : List UInt8} (all : ∀ byte ∈ digits, isDigit byte = true)
    : number (digits.take 9) < 10 ^ min 9 digits.length := by
  rw [← List.length_take]
  exact number_lt fun byte member => all byte (List.mem_of_mem_take member)

theorem fractionNanos_lt {digits : List UInt8} (all : ∀ byte ∈ digits, isDigit byte = true)
    : fractionNanos digits < nanosPerSecond :=
  calc
    fractionNanos digits < 10 ^ min 9 digits.length * 10 ^ (9 - digits.length) :=
      Nat.mul_lt_mul_of_pos_right (number_take_lt all) (Nat.pow_pos (by decide))
    _ = 10 ^ 9 := by rw [← Nat.pow_add]; congr 1; omega

theorem readFraction_lt {bytes rest : List UInt8} {nanos : Nat}
    (read : readFraction bytes = .ok (nanos, rest))
    : nanos < nanosPerSecond := by
  unfold readFraction at read
  split at read
  · cases read
    decide
  · dsimp only at read
    split_ifs at read
    · cases read
      exact fractionNanos_lt fun byte member => List.mem_takeWhile_imp member
    · cases read
      decide

theorem readZone_lt {bytes : List UInt8} {offset : Int} (read : readZone bytes = .ok offset)
    : offset.natAbs < secondsPerDay := by
  unfold readZone at read
  split at read
  case h_1 =>
    cases read
    decide
  case h_2 sign _ _ _ _ =>
    split at read
    case isFalse => cases read
    case isTrue =>
      obtain ⟨hour, _, read⟩ := bind_eq_ok_iff.mp read
      obtain ⟨minute, _, read⟩ := bind_eq_ok_iff.mp read
      obtain ⟨inRange, read⟩ := throwIf_eq_ok_iff.mp read
      cases read
      simp only [Bool.or_eq_true, decide_eq_true_eq, not_or] at inRange
      unfold secondsPerDay
      split_ifs <;> omega
  case h_3 => cases read

/-- An offset of less than a day moves an instant to a neighbouring day at most. -/
theorem day_ofLocal_bounds (date : Date) (nanos : Nat) {hour minute second : Nat} {offset : Int}
    (hours : hour ≤ 23) (minutes : minute ≤ 59) (seconds : second ≤ 59)
    (near : offset.natAbs < secondsPerDay)
    : date.dayNumber - 1
        ≤ (Instant.ofLocal date hour minute second nanos offset).seconds / secondsPerDay
      ∧ (Instant.ofLocal date hour minute second nanos offset).seconds / secondsPerDay
        ≤ date.dayNumber + 1 := by
  unfold Instant.ofLocal secondsPerDay at *
  dsimp only
  omega

/-- An offset moves an instant by one year at most from the years of four digits. -/
theorem year_ofLocal_bounds {year month day hour minute second nanos : Nat} {offset : Int}
    {instant : Instant}
    (is : instant = .ofLocal ⟨year, month, day⟩ hour minute second nanos offset)
    (valid : Date.isValid ⟨year, month, day⟩ = true) (fourDigits : year < 10000)
    (hours : hour ≤ 23) (minutes : minute ≤ 59) (seconds : second ≤ 59)
    (near : offset.natAbs < secondsPerDay)
    : -1 ≤ (Date.ofDayNumber (instant.seconds / secondsPerDay)).year
      ∧ (Date.ofDayNumber (instant.seconds / secondsPerDay)).year ≤ 10000 := by
  subst is
  obtain ⟨least, most⟩ := dayNumber_bounds valid
  obtain ⟨notBefore, notBehind⟩ :=
    day_ofLocal_bounds ⟨year, month, day⟩ nanos hours minutes seconds near
  have first := daysBeforeYear_mono (Int.natCast_nonneg year)
  have last := daysBeforeYear_mono (show (year : Int) + 1 ≤ 10000 by omega)
  have before : daysBeforeYear (-1) + 1 ≤ daysBeforeYear 0 := by decide
  have behind : daysBeforeYear 10000 + 1 < daysBeforeYear (10000 + 1) := by decide
  dsimp only at least most
  exact year_ofDayNumber_bounds (by omega) (by omega)

/-- A stated instant lies within its second, and its year has four digits or is next to such a year.
-/
theorem readLayout_bounds {bytes : List UInt8} {instant : Instant}
    (read : readLayout bytes = .ok instant)
    : instant.nanos < nanosPerSecond
      ∧ -1 ≤ (Date.ofDayNumber (instant.seconds / secondsPerDay)).year
      ∧ (Date.ofDayNumber (instant.seconds / secondsPerDay)).year ≤ 10000 := by
  unfold readLayout at read
  split at read
  case h_2 => cases read
  case h_1 =>
    obtain ⟨_, read⟩ := throwIf_eq_ok_iff.mp read
    obtain ⟨year, yearRead, read⟩ := bind_eq_ok_iff.mp read
    obtain ⟨month, _, read⟩ := bind_eq_ok_iff.mp read
    obtain ⟨day, _, read⟩ := bind_eq_ok_iff.mp read
    obtain ⟨hour, _, read⟩ := bind_eq_ok_iff.mp read
    obtain ⟨minute, _, read⟩ := bind_eq_ok_iff.mp read
    obtain ⟨second, _, read⟩ := bind_eq_ok_iff.mp read
    obtain ⟨inRange, read⟩ := throwIf_eq_ok_iff.mp read
    obtain ⟨⟨nanos, rest⟩, fraction, read⟩ := bind_eq_ok_iff.mp read
    obtain ⟨offset, zone, read⟩ := bind_eq_ok_iff.mp read
    dsimp only at read
    split at read
    case isFalse => cases read
    case isTrue valid =>
      cases read
      have fourDigits : year < 10000 := by simpa using readNumber_lt yearRead
      simp only [Bool.or_eq_true, decide_eq_true_eq, not_or, Nat.not_lt] at inRange
      obtain ⟨⟨hours, minutes⟩, seconds⟩ := inRange
      exact ⟨readFraction_lt fraction,
        year_ofLocal_bounds rfl valid fourDigits hours minutes seconds (readZone_lt zone)⟩

theorem isPrintable_of_readLayout {bytes : List UInt8} {instant : Instant}
    (read : readLayout bytes = .ok instant)
    : instant.IsPrintable := by
  obtain ⟨nanos, least, most⟩ := readLayout_bounds read
  have first : yearBounds.1 ≤ -1 := by decide
  have last : 10000 ≤ yearBounds.2 := by decide
  refine ⟨nanos, ?_⟩
  simp only [Date.isCounted, Bool.and_eq_true, decide_eq_true_eq]
  exact ⟨⟨(ofDayNumber_spec _).1, by omega⟩, by omega⟩

end LogIntake.Calendar
