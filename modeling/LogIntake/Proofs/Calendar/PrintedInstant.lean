import LogIntake.Calendar.Relaxed
import LogIntake.Proofs.Calendar.DayNumbers
import LogIntake.Proofs.Decimal.Digits
import LogIntake.Proofs.Outcome
import Mathlib.Data.List.TakeWhile

/-! Instants as they are printed, read back by the relaxed layout. Each part of the text is taken
off the front of the rest, the parts that are two digits wide all in the same way.
-/

namespace LogIntake.Calendar

open Unicode

-----------------------------------------------------------------------------------------
-- Numbers
-----------------------------------------------------------------------------------------

theorem digitsValue_eq (digits : List Char) : digitsValue digits = Nat.ofDigitChars 10 digits 0 :=
  Decimal.foldl_digits_eq_ofDigitChars (fun _ _ _ => rfl) 0

/-- Zeros in front do not change a number. -/
theorem digitsValue_padded (width n : Nat) : digitsValue (padded width n) = n := by
  rw [digitsValue_eq, padded, Nat.ofDigitChars_append, Nat.ofDigitChars_replicate_zero,
    Nat.mul_zero, Nat.ofDigitChars_ten_toDigits]

theorem isDigit_of_mem_padded {width n : Nat} {c : Char} (member : c ∈ padded width n)
    : c.isDigit = true := by
  rcases List.mem_append.mp member with zero | digit
  · rw [List.eq_of_mem_replicate zero]
    rfl
  · exact Decimal.isDigit_of_mem_digits digit

theorem padded_ne_nil (width n : Nat) : padded width n ≠ [] :=
  List.append_ne_nil_of_right_ne_nil _ (Decimal.digits_ne_nil n)

theorem length_padded {width n : Nat} (positive : 0 < width) (fits : n < 10 ^ width)
    : (padded width n).length = width := by
  have digits : (Nat.toDigits 10 n).length ≤ width :=
    (Nat.length_toDigits_le_iff (by decide) positive).mpr fits
  rw [padded, List.length_append, List.length_replicate, Nat.sub_add_cancel digits]

/-- Digits are taken as a number if they are all the digits in front that the limit admits. -/
theorem takeDigits_padded {limit : Option Nat} {width n : Nat} {rest : List Char}
    (run : (limit.map ((padded width n ++ rest).takeWhile Char.isDigit).take).getD
        ((padded width n ++ rest).takeWhile Char.isDigit)
      = padded width n)
    (counted : n ≤ maxCounted)
    : takeDigits limit (padded width n ++ rest) = .ok (n, rest) := by
  have nonempty : ¬(padded width n).isEmpty = true := by simpa using padded_ne_nil width n
  obtain ⟨c, more, text⟩ := List.exists_cons_of_ne_nil
    (List.append_ne_nil_of_left_ne_nil (padded_ne_nil width n) rest)
  unfold takeDigits
  rw [text] at run ⊢
  dsimp only
  rw [run, ← text, if_neg nonempty, digitsValue_padded, if_neg (Nat.not_lt.mpr counted),
    List.drop_left]

/-- A limit that the digits reach cuts off what follows them, other digits included. -/
theorem takeDigits_padded_full {width n : Nat} (positive : 0 < width) (fits : n < 10 ^ width)
    (counted : n ≤ maxCounted) (rest : List Char)
    : takeDigits (some width) (padded width n ++ rest) = .ok (n, rest) := by
  refine takeDigits_padded ?_ counted
  rw [List.takeWhile_append_of_pos fun c member => isDigit_of_mem_padded member, Option.map_some,
    Option.getD_some]
  exact List.take_left' (length_padded positive fits)

/-- A limit that the digits do not pass leaves it to what follows where they end. -/
theorem takeDigits_padded_run {limit : Option Nat} {width n : Nat} {mark : Char}
    (room : ∀ most ∈ limit, (padded width n).length ≤ most) (ends : mark.isDigit = false)
    (counted : n ≤ maxCounted) (rest : List Char)
    : takeDigits limit (padded width n ++ mark :: rest) = .ok (n, mark :: rest) := by
  refine takeDigits_padded ?_ counted
  rw [List.takeWhile_append_of_pos fun c member => isDigit_of_mem_padded member,
    List.takeWhile_cons_of_neg (by simpa using ends), List.append_nil]
  cases limit with
  | none => rfl
  | some most => exact List.take_of_length_le (room most rfl)

-----------------------------------------------------------------------------------------
-- The parts of a text
-----------------------------------------------------------------------------------------

/-- The digits and the marks of an instant are no blanks. -/
theorem skipBlanks_cons_of_visible {c : Char} (visible : 0x21 ≤ c.toNat ∧ c.toNat < 0x60)
    (rest : List Char)
    : skipBlanks (c :: rest) = c :: rest := by
  have table : ∀ code < 0x60, 0x21 ≤ code → Property.whiteSpace.contains code = false := by decide
  refine List.dropWhile_cons_of_neg ?_
  rw [table c.toNat visible.2 visible.1]
  exact Bool.false_ne_true

theorem visible_of_isDigit {c : Char} (digit : c.isDigit = true)
    : 0x21 ≤ c.toNat ∧ c.toNat < 0x60 := by
  obtain ⟨low, high⟩ := Char.isDigit_iff_toNat.mp digit
  exact ⟨Nat.le_trans (by decide) low, Nat.lt_of_le_of_lt high (by decide)⟩

theorem exists_padded_eq_cons (width n : Nat)
    : ∃ c more, padded width n = c :: more ∧ c.isDigit = true := by
  obtain ⟨c, more, text⟩ := List.exists_cons_of_ne_nil (padded_ne_nil width n)
  exact ⟨c, more, text, isDigit_of_mem_padded (text ▸ List.mem_cons_self)⟩

theorem skipBlanks_padded (width n : Nat) (rest : List Char)
    : skipBlanks (padded width n ++ rest) = padded width n ++ rest := by
  obtain ⟨c, more, text, digit⟩ := exists_padded_eq_cons width n
  rw [text]
  exact skipBlanks_cons_of_visible (visible_of_isDigit digit) _

theorem takeBounded_padded {low high n : Nat} (least : low ≤ n) (most : n ≤ high)
    (narrow : high < 100) (rest : List Char)
    : takeBounded low high (padded 2 n ++ rest) = .ok (n, rest) := by
  have counted : n ≤ maxCounted := Nat.le_trans (show n ≤ 100 by omega) (by decide)
  unfold takeBounded
  rw [skipBlanks_padded, takeDigits_padded_full (by decide) (by omega) counted]
  exact if_pos ⟨least, most⟩

theorem takeMark_self {mark : Char} (visible : 0x21 ≤ mark.toNat ∧ mark.toNat < 0x60)
    (rest : List Char)
    : takeMark mark (mark :: rest) = .ok rest := by
  rw [takeMark, skipBlanks_cons_of_visible visible]
  exact if_pos rfl

/-- A year is read back with its sign, in front of a mark. -/
theorem takeYear_yearText {year : Int} (least : yearBounds.1 ≤ year) (most : year ≤ yearBounds.2)
    (rest : List Char)
    : takeYear (yearText year ++ '-' :: rest) = .ok (year, '-' :: rest) := by
  have statable : -(Nat.pow 2 31 : Int) ≤ year ∧ year < Nat.pow 2 31 :=
    ⟨Int.le_trans (by decide) least, Int.lt_of_le_of_lt most (by decide)⟩
  have counted : year.natAbs ≤ maxCounted := by
    refine Nat.le_trans (m := 262143) ?_ (by decide)
    unfold yearBounds at least most
    omega
  have signed
      : takeDigits none (padded 4 year.natAbs ++ '-' :: rest) = .ok (year.natAbs, '-' :: rest) :=
    takeDigits_padded_run (by simp) rfl counted rest
  unfold takeYear yearText
  dsimp only
  split_ifs with short before
  · obtain ⟨c, more, text, digit⟩ := exists_padded_eq_cons 4 year.toNat
    have narrow : year.toNat < 10 ^ 4 := by omega
    have taken := takeDigits_padded_full (by decide) narrow (by omega) ('-' :: rest)
    have value : (year.toNat : Int) = year := Int.toNat_of_nonneg short.1
    rw [skipBlanks_padded]
    rw [text] at taken ⊢
    split
    case h_1 sign =>
      cases sign
      cases digit
    case h_2 sign =>
      cases sign
      cases digit
    case h_3 =>
      refine bind_eq_ok_iff.mpr ⟨_, taken, ?_⟩
      dsimp only
      rw [value]
      exact if_pos statable
  · have value : -(year.natAbs : Int) = year := by omega
    rw [List.cons_append, skipBlanks_cons_of_visible (by decide)]
    refine bind_eq_ok_iff.mpr ⟨_, signed, ?_⟩
    dsimp only
    rw [value]
    exact if_pos statable
  · have value : (year.natAbs : Int) = year := by omega
    rw [List.cons_append, skipBlanks_cons_of_visible (by decide)]
    refine bind_eq_ok_iff.mpr ⟨_, signed, ?_⟩
    dsimp only
    rw [value]
    exact if_pos statable

/-- A fraction of some digits is read back, filled up to nine. -/
theorem takeFraction_padded {width n : Nat} (positive : 0 < width) (short : width ≤ 9)
    (fits : n < 10 ^ width) (rest : List Char)
    : takeFraction ('.' :: (padded width n ++ 'Z' :: rest))
      = .ok (n * 10 ^ (9 - width), 'Z' :: rest) := by
  have length := length_padded positive fits
  have counted : n ≤ maxCounted := by
    refine Nat.le_trans (Nat.le_of_lt fits) ?_
    exact Nat.le_trans (Nat.pow_le_pow_right (by decide) short) (by decide)
  have room : ∀ most ∈ some 9, (padded width n).length ≤ most := by
    rintro _ ⟨⟩
    exact length.trans_le short
  refine bind_eq_ok_iff.mpr ⟨_, takeDigits_padded_run room rfl counted rest, ?_⟩
  have used : (padded width n ++ 'Z' :: rest).length - ('Z' :: rest).length = width := by
    rw [List.length_append, Nat.add_sub_cancel, length]
  simp only [used]
  rfl

/-- However many digits a fraction needs, it is read back. -/
theorem takeFraction_fractionText {nanos : Nat} (below : nanos < nanosPerSecond) (rest : List Char)
    : takeFraction (fractionText nanos ++ 'Z' :: rest) = .ok (nanos, 'Z' :: rest) := by
  unfold nanosPerSecond at below
  have filled {width n : Nat} (positive : 0 < width) (short : width ≤ 9) (fits : n < 10 ^ width)
      (value : n * 10 ^ (9 - width) = nanos)
      : takeFraction (('.' :: padded width n) ++ 'Z' :: rest) = .ok (nanos, 'Z' :: rest) :=
    value ▸ takeFraction_padded positive short fits rest
  unfold fractionText
  split_ifs with none millis micros
  · rw [none]
    rfl
  · exact filled (by decide) (by decide) (by omega) (by omega)
  · exact filled (by decide) (by decide) (by omega) (by omega)
  · exact filled (by decide) (by decide) (by omega) (by omega)

-----------------------------------------------------------------------------------------
-- Whole instants
-----------------------------------------------------------------------------------------

/-- The text of a date and a time of day in universal time. -/
def timeText (date : Date) (hour minute second nanos : Nat) : List Char :=
  yearText date.year
    ++ '-' :: (padded 2 date.month
      ++ '-' :: (padded 2 date.day
        ++ 'T' :: (padded 2 hour
          ++ ':' :: (padded 2 minute
            ++ ':' :: (padded 2 second ++ (fractionText nanos ++ ['Z']))))))

/-- Months and days have two digits at most. -/
theorem Date.bounds_of_isValid {date : Date} (valid : date.isValid = true)
    : (1 ≤ date.month ∧ date.month ≤ 12) ∧ 1 ≤ date.day ∧ date.day ≤ 31 := by
  have long : ∀ length ∈ monthLengths date.year, length ≤ 31 := by
    cases leap : isLeapYear date.year <;> simp [monthLengths, leap]
  simp only [isValid, Bool.and_eq_true, decide_eq_true_eq] at valid
  obtain ⟨⟨⟨first, last⟩, least⟩, most⟩ := valid
  refine ⟨⟨first, last⟩, least, most.trans ?_⟩
  rw [List.getD_eq_getElem?_getD]
  cases found : (monthLengths date.year)[date.month - 1]? with
  | none => exact Nat.zero_le _
  | some length => exact long length (List.mem_of_getElem? found)

/-- The text of a date that is counted and a time of day is read back as its instant. -/
theorem readRelaxed_timeText {date : Date} {hour minute second nanos : Nat}
    (counted : date.isCounted = true) (hours : hour ≤ 23) (minutes : minute ≤ 59)
    (seconds : second ≤ 59) (below : nanos < nanosPerSecond)
    (lands
      : (Date.ofDayNumber ((Instant.ofLocal date hour minute second nanos 0).seconds
            / secondsPerDay)).isCounted
        = true)
    : readRelaxed (timeText date hour minute second nanos)
      = .ok (.ofLocal date hour minute second nanos 0) := by
  have parts := counted
  simp only [Date.isCounted, Bool.and_eq_true, decide_eq_true_eq] at parts
  obtain ⟨⟨valid, least⟩, most⟩ := parts
  obtain ⟨⟨firstMonth, lastMonth⟩, firstDay, lastDay⟩ := Date.bounds_of_isValid valid
  have noLeap : second ≠ 60 := by omega
  have leapless : second ≤ 60 := by omega
  have zone : takeOffset (skipBlanks ['Z']) = .ok (0, []) := by
    rw [skipBlanks_cons_of_visible (by decide)]
    rfl
  unfold timeText
  refine bind_eq_ok_iff.mpr ⟨_, takeYear_yearText least most _, ?_⟩
  refine bind_eq_ok_iff.mpr ⟨_, takeMark_self (by decide) _, ?_⟩
  refine bind_eq_ok_iff.mpr ⟨_, takeBounded_padded firstMonth lastMonth (by decide) _, ?_⟩
  refine bind_eq_ok_iff.mpr ⟨_, takeMark_self (by decide) _, ?_⟩
  refine bind_eq_ok_iff.mpr ⟨_, takeBounded_padded firstDay lastDay (by decide) _, ?_⟩
  refine bind_eq_ok_iff.mpr ⟨_, rfl, ?_⟩
  refine bind_eq_ok_iff.mpr ⟨_, takeBounded_padded (Nat.zero_le _) hours (by decide) _, ?_⟩
  refine bind_eq_ok_iff.mpr ⟨_, takeMark_self (by decide) _, ?_⟩
  refine bind_eq_ok_iff.mpr ⟨_, takeBounded_padded (Nat.zero_le _) minutes (by decide) _, ?_⟩
  refine bind_eq_ok_iff.mpr ⟨_, takeMark_self (by decide) _, ?_⟩
  refine bind_eq_ok_iff.mpr ⟨_, takeBounded_padded (Nat.zero_le _) leapless (by decide) _, ?_⟩
  refine bind_eq_ok_iff.mpr ⟨_, takeFraction_fractionText below _, ?_⟩
  refine bind_eq_ok_iff.mpr ⟨_, zone, ?_⟩
  have done : (skipBlanks []).isEmpty = true := rfl
  have near : ¬secondsPerDay ≤ (0 : Int).natAbs := by decide
  simp only [done, counted, near, noLeap, lands, Bool.not_true, Bool.false_eq_true, if_true,
    if_false, Nat.add_zero]
  rfl

theorem chars_eq {instant : Instant} (below : instant.nanos < nanosPerSecond)
    : let date := Date.ofDayNumber (instant.seconds / secondsPerDay)
      let time := (instant.seconds % secondsPerDay).toNat
      instant.chars
      = timeText date (time / 3600) (time / 60 % 60) (time % 60) instant.nanos := by
  have noLeap : ¬nanosPerSecond ≤ instant.nanos := Nat.not_le_of_lt below
  simp only [Instant.chars, timeText, noLeap, if_false, Nat.add_zero, Nat.sub_zero,
    List.append_assoc, List.cons_append]

/-- An instant is that of its date and its time of day in universal time. -/
theorem ofLocal_date (instant : Instant)
    : let date := Date.ofDayNumber (instant.seconds / secondsPerDay)
      let time := (instant.seconds % secondsPerDay).toNat
      Instant.ofLocal date (time / 3600) (time / 60 % 60) (time % 60) instant.nanos 0
      = instant := by
  obtain ⟨_, number⟩ := ofDayNumber_spec (instant.seconds / secondsPerDay)
  have seconds
      : instant.seconds / secondsPerDay * secondsPerDay
          + (((instant.seconds % secondsPerDay).toNat / 3600) * 3600
              + (instant.seconds % secondsPerDay).toNat / 60 % 60 * 60
              + (instant.seconds % secondsPerDay).toNat % 60 : Nat) - 0
        = instant.seconds := by
    unfold secondsPerDay
    omega
  simp only [Instant.ofLocal, number, seconds]

/-- An instant that is printed in full: nanoseconds within the second, on a date that is counted. -/
structure Instant.IsPrintable (instant : Instant) : Prop where
  nanos : instant.nanos < nanosPerSecond
  counted : (Date.ofDayNumber (instant.seconds / secondsPerDay)).isCounted = true

/-- A printable instant is read back from its text to the nanosecond. -/
theorem readRelaxed_chars {instant : Instant} (printable : instant.IsPrintable)
    : readRelaxed instant.chars = .ok instant := by
  obtain ⟨below, counted⟩ := printable
  have own := ofLocal_date instant
  have time : (instant.seconds % secondsPerDay).toNat < 86400 := by
    unfold secondsPerDay
    omega
  rw [chars_eq below, readRelaxed_timeText counted (by omega) (by omega) (by omega) below]
  · exact congrArg Except.ok own
  · rw [own]
    exact counted

end LogIntake.Calendar
