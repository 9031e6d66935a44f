import LogIntake.Proofs.Calendar.DistinctText
import LogIntake.Proofs.Entry.StatedInstant
import LogIntake.Record

/-! Printed instants as timestamps. An instant is printed on its date and at its time of day in
universal time, with the shortest fraction that is exact. That is a timestamp again if the year has
four digits, and else a sign in front of the year makes it none.
-/

namespace LogIntake

namespace Calendar

-----------------------------------------------------------------------------------------
-- What is printed
-----------------------------------------------------------------------------------------

/-- Fraction digits in groups of three that come to exactly some nanoseconds. -/
structure IsExact (nanos : Nat) (digits : List Char) : Prop where
  isDigit : ∀ c ∈ digits, c.isDigit = true
  groups : digits.length ∈ [0, 3, 6, 9]
  value : Nat.ofDigitChars 10 digits 0 * 10 ^ (9 - digits.length) = nanos

/-- A date that exists, a time of day without leap seconds, and the digits of a fraction. -/
structure PrintedTime where
  date : Date
  present : date.Exists
  hour : Fin 24
  minute : Fin 60
  second : Fin 60
  digits : List Char

namespace PrintedTime

/-- The text of a time in universal time. -/
def chars (printed : PrintedTime) : List Char :=
  yearText printed.date.year ++ '-' :: padded 2 printed.date.month
    ++ '-' :: padded 2 printed.date.day ++ 'T' :: padded 2 printed.hour
    ++ ':' :: padded 2 printed.minute ++ ':' :: padded 2 printed.second
    ++ (if printed.digits = [] then [] else '.' :: printed.digits) ++ ['Z']

/-- A time is that of an instant, exactly and with no more digits than this takes. -/
structure Tells (printed : PrintedTime) (instant : Instant) : Prop where
  seconds
    : ∃ days,
        printed.date.IsDay days
        ∧ instant.seconds
          = 86400 * days + 3600 * printed.hour + 60 * printed.minute + printed.second
  exact : IsExact instant.nanos printed.digits
  shortest : ∀ digits, IsExact instant.nanos digits → printed.digits.length ≤ digits.length

end PrintedTime

theorem isExact_padded {width n nanos : Nat} (group : width ∈ [3, 6, 9]) (fits : n < 10 ^ width)
    (value : n * 10 ^ (9 - width) = nanos)
    : (padded width n).length = width ∧ IsExact nanos (padded width n) := by
  have positive : 0 < width := by
    simp only [List.mem_cons, List.not_mem_nil, or_false] at group
    omega
  have length := length_padded positive fits
  refine ⟨length, fun c => isDigit_of_mem_padded, ?_, ?_⟩
  · rw [length]
    exact List.mem_cons_of_mem 0 group
  · rw [length, ← digitsValue_eq, digitsValue_padded, value]

/-- Every fraction is printed by the fewest groups of digits that are exact, by the cases of how
many there are.
-/
theorem exists_isExact {nanos : Nat} (below : nanos < nanosPerSecond)
    : ∃ digits,
        IsExact nanos digits
        ∧ (∀ others, IsExact nanos others → digits.length ≤ others.length)
        ∧ fractionText nanos = if digits = [] then [] else '.' :: digits := by
  unfold nanosPerSecond at below
  have grouped {width n : Nat} (group : width ∈ [3, 6, 9]) (fits : n < 10 ^ width)
      (value : n * 10 ^ (9 - width) = nanos)
      (needed : ∀ others, IsExact nanos others → width ≤ others.length)
      : ∃ digits,
          IsExact nanos digits
          ∧ (∀ others, IsExact nanos others → digits.length ≤ others.length)
          ∧ '.' :: padded width n = if digits = [] then [] else '.' :: digits := by
    obtain ⟨length, exact⟩ := isExact_padded group fits value
    exact ⟨_, exact, by rwa [length], (if_neg (padded_ne_nil width n)).symm⟩
  -- A fraction of fewer digits is one of fewer groups, which is not exact.
  have counted (others : List Char) (exact : IsExact nanos others)
      : others.length = 0 ∧ nanos = 0
        ∨ others.length = 3 ∧ nanos % 1000000 = 0
        ∨ others.length = 6 ∧ nanos % 1000 = 0
        ∨ others.length = 9 := by
    obtain ⟨_, groups, value⟩ := exact
    simp only [List.mem_cons, List.not_mem_nil, or_false] at groups
    rcases groups with none | three | six | nine
    · obtain rfl := List.length_eq_zero_iff.mp none
      exact .inl ⟨none, value.symm.trans (Nat.zero_mul _)⟩
    · rw [three] at value
      exact .inr (.inl ⟨three, by omega⟩)
    · rw [six] at value
      exact .inr (.inr (.inl ⟨six, by omega⟩))
    · exact .inr (.inr (.inr nine))
  unfold fractionText
  split_ifs with none millis micros
  · refine ⟨[], ⟨nofun, by decide, ?_⟩, fun _ _ => Nat.zero_le _, rfl⟩
    exact (Nat.zero_mul _).trans none.symm
  · refine grouped (by decide) (by omega) (by omega) fun others exact => ?_
    have cases := counted others exact
    omega
  · refine grouped (by decide) (by omega) (by omega) fun others exact => ?_
    have cases := counted others exact
    omega
  · refine grouped (by decide) (by omega) (by omega) fun others exact => ?_
    have cases := counted others exact
    omega

/-- The text of an instant within its second is that of its time. -/
theorem exists_printedTime {instant : Instant} (below : instant.nanos < nanosPerSecond)
    : ∃ printed : PrintedTime, instant.chars = printed.chars ∧ printed.Tells instant := by
  obtain ⟨digits, exact, shortest, fraction⟩ := exists_isExact below
  obtain ⟨valid, number⟩ := ofDayNumber_spec (instant.seconds / secondsPerDay)
  have present := Date.isValid_iff_exists.mp valid
  let time := (instant.seconds % secondsPerDay).toNat
  have day : time < 86400 := by
    unfold time secondsPerDay
    omega
  let printed : PrintedTime :=
    { date := .ofDayNumber (instant.seconds / secondsPerDay), present,
      hour := ⟨time / 3600, by omega⟩, minute := ⟨time / 60 % 60, by omega⟩,
      second := ⟨time % 60, by omega⟩, digits }
  refine ⟨printed, ?_, ⟨_, (Date.isDay_iff present).mpr number.symm, ?_⟩, exact, shortest⟩
  · rw [chars_eq below, timeText, fraction, PrintedTime.chars]
    simp only [printed, time, List.append_assoc, List.cons_append]
  · simp only [printed, time]
    unfold secondsPerDay
    omega

-----------------------------------------------------------------------------------------
-- Timestamps again
-----------------------------------------------------------------------------------------

theorem IsExact.nanos_eq {nanos : Nat} {fraction : Fraction}
    (exact : IsExact nanos fraction.digits)
    : fraction.nanos = nanos := by
  have short : fraction.digits.length ≤ 9 := by
    have groups := exact.groups
    simp only [List.mem_cons, List.not_mem_nil, or_false] at groups
    omega
  rw [Fraction.nanos, List.take_append, List.take_of_length_le short, List.take_replicate,
    Nat.ofDigitChars_append, Nat.ofDigitChars_replicate_zero, Nat.min_eq_left (Nat.sub_le _ _),
    Nat.mul_comm, exact.value]

/-- A time in a year of four digits is a timestamp of its instant. -/
theorem PrintedTime.Tells.exists_stamp {printed : PrintedTime} {instant : Instant}
    (tells : printed.Tells instant)
    (fourDigits : 0 ≤ printed.date.year ∧ printed.date.year ≤ 9999)
    : ∃ stamp : Stamp, printed.chars = stamp.chars ∧ stamp.Denotes instant := by
  obtain ⟨⟨year, month, day⟩, present, hour, minute, second, digits⟩ := printed
  obtain ⟨⟨days, onDay, seconds⟩, exact, _⟩ := tells
  dsimp only at *
  obtain ⟨year, rfl⟩ := Int.eq_ofNat_of_zero_le fourDigits.1
  have text : yearText year = padded 4 year := by
    rw [yearText, if_pos fourDigits, Int.toNat_natCast]
  have written (fraction : Option Fraction) (nanos : fraction.elim 0 Fraction.nanos = instant.nanos)
      (fractionChars
        : (if digits = [] then [] else '.' :: digits) = fraction.elim [] Fraction.chars)
      : ∃ stamp : Stamp,
          chars ⟨⟨year, month, day⟩, present, hour, minute, second, digits⟩ = stamp.chars
          ∧ stamp.Denotes instant := by
    let stamp : Stamp :=
      { year := ⟨year, by omega⟩, month, day, present, hour, minute, second, fraction,
        zone := .universal }
    refine ⟨stamp, ?_, days, onDay, seconds.trans (Int.sub_zero _).symm, nanos.symm⟩
    simp only [chars, Stamp.chars, stamp, text, fractionChars, Zone.chars]
  rcases eq_or_ne digits [] with rfl | nonempty
  · exact written none ((Nat.zero_mul _).symm.trans exact.value) rfl
  · exact written (some ⟨'.', digits, .inl rfl, nonempty, exact.isDigit⟩) exact.nanos_eq
      (if_neg nonempty)

/-- A time in any other year is no timestamp, as it begins with a sign. -/
theorem PrintedTime.chars_ne_stamp {printed : PrintedTime}
    (outside : ¬(0 ≤ printed.date.year ∧ printed.date.year ≤ 9999)) (stamp : Stamp)
    : printed.chars ≠ stamp.chars := by
  unfold PrintedTime.chars Stamp.chars yearText
  rw [if_neg outside]
  simp only [List.append_assoc, List.cons_append]
  split_ifs <;> exact (padded_append_ne_cons rfl).symm

/-- The text of a time is one word. -/
theorem PrintedTime.Tells.blank_notMem {printed : PrintedTime} {instant : Instant}
    (tells : printed.Tells instant)
    : ' ' ∉ printed.chars := by
  have noDigit : ' '.isDigit = false := rfl
  have number (width n : Nat) : ' ' ∉ padded width n := fun member =>
    Bool.false_ne_true (noDigit.symm.trans (isDigit_of_mem_padded member))
  have year (year : Int) : ' ' ∉ yearText year := by
    have writes := writesYear year
    generalize yearText year = text at writes
    cases writes <;> simp [number]
  have digits : ' ' ∉ printed.digits := fun member =>
    Bool.false_ne_true (noDigit.symm.trans (tells.exact.isDigit _ member))
  have fraction : ' ' ∉ if printed.digits = [] then [] else '.' :: printed.digits := by
    split_ifs <;> simp [digits]
  simp [PrintedTime.chars, year, number, fraction]

end Calendar

namespace Record

open Calendar
open Text.Utf8

/-- A stated instant is printed in front of the labels and the line as one word: on its date and at
its time of day in universal time, with the shortest fraction that is exact. The word is accepted as
a timestamp exactly if the year has four digits, and then it states exactly that instant. Whatever
else states an instant, the word is the same exactly if the instant is.
-/
theorem timestamp_read_again {bytes : List UInt8} {instant : Instant}
    (read : readLayout bytes = .ok instant)
    : ∃ printed : PrintedTime,
        printed.Tells instant
        ∧ (∀ labels line,
            (Record.mk labels instant line).display.toList.takeWhile (· ≠ ' ') = printed.chars)
        ∧ ((∃ again, readLayout (encodeChars printed.chars) = .ok again)
            ↔ 0 ≤ printed.date.year ∧ printed.date.year ≤ 9999)
        ∧ (∀ again, readLayout (encodeChars printed.chars) = .ok again → again = instant)
        ∧ ∀ others other,
            readLayout others = .ok other
            → (other.text.toList = printed.chars
              ↔ other.seconds * 10 ^ 9 + other.nanos = instant.seconds * 10 ^ 9 + instant.nanos)
    := by
  have within {bytes : List UInt8} {instant : Instant} (read : readLayout bytes = .ok instant)
      : instant.nanos < nanosPerSecond :=
    (readLayout_bounds read).1
  obtain ⟨printed, chars, tells⟩ := exists_printedTime (within read)
  have text : instant.text.toList = printed.chars := String.toList_ofList.trans chars
  have noStamp (outside : ¬(0 ≤ printed.date.year ∧ printed.date.year ≤ 9999)) (again : Instant)
      : readLayout (encodeChars printed.chars) ≠ .ok again := by
    intro accepted
    obtain ⟨stamp, same, _⟩ := readLayout_eq_ok_iff.mp accepted
    exact printed.chars_ne_stamp outside stamp (encodeChars_inj.mp same)
  have stamped (fourDigits : 0 ≤ printed.date.year ∧ printed.date.year ≤ 9999)
      : readLayout (encodeChars printed.chars) = .ok instant := by
    obtain ⟨stamp, same, denotes⟩ := tells.exists_stamp fourDigits
    exact readLayout_eq_ok_iff.mpr ⟨stamp, congrArg encodeChars same, denotes⟩
  refine ⟨printed, tells, fun labels line => ?word, ⟨?four, fun year => ⟨_, stamped year⟩⟩,
    fun again accepted => ?same, fun others other otherRead => ?others⟩
  case word =>
    have blank := tells.blank_notMem
    simp only [display, String.toList_append, text, List.append_assoc]
    rw [List.takeWhile_append_of_pos fun c member => by
      simpa using fun same : c = ' ' => blank (same ▸ member)]
    exact List.append_nil _
  case four =>
    intro accepts
    obtain ⟨again, accepted⟩ := accepts
    by_contra outside
    exact noStamp outside again accepted
  case same =>
    by_cases year : 0 ≤ printed.date.year ∧ printed.date.year ≤ 9999
    · exact Except.ok.inj (accepted.symm.trans (stamped year))
    · exact absurd accepted (noStamp year again)
  case others =>
    have below := within read
    have otherBelow := within otherRead
    have otherText : other.text.toList = other.chars := String.toList_ofList
    rw [otherText, ← chars]
    constructor
    · intro same
      obtain ⟨rfl, _⟩ := chars_selfDelimiting.cut otherBelow below (congrArg (· ++ []) same)
      rfl
    · intro same
      unfold nanosPerSecond at below otherBelow
      obtain ⟨seconds, nanos⟩ := instant
      obtain ⟨otherSeconds, otherNanos⟩ := other
      dsimp only at same below otherBelow
      obtain rfl : otherSeconds = seconds := by omega
      obtain rfl : otherNanos = nanos := by omega
      rfl

/-- An instant whose offset carries it into the next year, and one that lies in the year 10000: the
first is printed as a timestamp, the second is not.
-/
theorem timestamp_read_again_new_year
    : let stated := encode "2024-12-31T23:30:00,2500-01:00"
      let beyond := encode "9999-12-31T23:59:59.5-00:01"
      ∃ instant last : Instant,
        readLayout stated = .ok instant
        ∧ readLayout beyond = .ok last
        ∧ ∃ printed lastPrinted : PrintedTime,
            printed.chars = "2025-01-01T00:30:00.250Z".toList
            ∧ (0 ≤ printed.date.year ∧ printed.date.year ≤ 9999)
            ∧ lastPrinted.chars = "+10000-01-01T00:00:59.500Z".toList
            ∧ ¬(0 ≤ lastPrinted.date.year ∧ lastPrinted.date.year ≤ 9999) := by
  intro stated beyond
  let instant : Instant := ⟨1735691400, 250000000⟩
  let last : Instant := ⟨253402300859, 500000000⟩
  have read : readLayout stated = .ok instant := by decide +kernel
  have lastRead : readLayout beyond = .ok last := by decide +kernel
  obtain ⟨printed, _, _, accepted, _, same⟩ := timestamp_read_again read
  obtain ⟨lastPrinted, _, _, lastAccepted, _, lastSame⟩ := timestamp_read_again lastRead
  have shown : instant.text = "2025-01-01T00:30:00.250Z" := by decide +kernel
  have lastShown : last.text = "+10000-01-01T00:00:59.500Z" := by decide +kernel
  have text := (same _ _ read).mpr rfl
  have lastText := (lastSame _ _ lastRead).mpr rfl
  rw [shown] at text
  rw [lastShown] at lastText
  have again : readLayout (encode "2025-01-01T00:30:00.250Z") = .ok instant := by decide +kernel
  have never
      : readLayout (encode "+10000-01-01T00:00:59.500Z") = .error .unexpectedSeparator := by
    decide +kernel
  refine ⟨instant, last, read, lastRead, printed, lastPrinted, text.symm, ?_, lastText.symm, ?_⟩
  · exact accepted.mp (text ▸ ⟨instant, again⟩)
  · intro year
    obtain ⟨other, lastAgain⟩ := lastAccepted.mpr year
    rw [← lastText] at lastAgain
    exact nomatch never.symm.trans lastAgain

end Record

end LogIntake
