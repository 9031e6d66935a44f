import LogIntake.Proofs.Calendar.DayCount
import LogIntake.Proofs.Calendar.LayoutBounds
import LogIntake.Proofs.Text.WellFormed

/-! Timestamps as they are written, and what they denote. A timestamp is put together from numbers
of a fixed width, a fraction and a zone; the strict layout reads exactly the texts that come about
in this way, each as the instant that it denotes.
-/

namespace LogIntake.Calendar

open Text.Utf8

-----------------------------------------------------------------------------------------
-- Written timestamps
-----------------------------------------------------------------------------------------

/-- A fraction of a second: a mark and one or more digits. -/
structure Fraction where
  mark : Char
  digits : List Char
  isMark : mark = '.' ∨ mark = ','
  nonempty : digits ≠ []
  isDigit : ∀ c ∈ digits, c.isDigit = true

def Fraction.chars (fraction : Fraction) : List Char :=
  fraction.mark :: fraction.digits

/-- The nanoseconds of a fraction are its first nine digits, with zeros for those that are missing.
-/
def Fraction.nanos (fraction : Fraction) : Nat :=
  Nat.ofDigitChars 10 ((fraction.digits ++ List.replicate 9 '0').take 9) 0

/-- The zone of a timestamp: universal time, or an offset from it with a sign. -/
inductive Zone where
  | universal
  | offset (behind : Bool) (hour : Fin 24) (minute : Fin 60)

def Zone.chars : Zone → List Char
  | universal => ['Z']
  | offset behind hour minute =>
      (if behind then '-' else '+') :: padded 2 hour ++ ':' :: padded 2 minute

/-- How many seconds a zone is ahead of universal time. -/
def Zone.seconds : Zone → Int
  | universal => 0
  | offset behind hour minute =>
      if behind then -(3600 * hour + 60 * minute) else 3600 * hour + 60 * minute

/-- A timestamp: a date that exists in a year of four digits, a time of day without leap seconds, a
fraction if there is one, and a zone.
-/
structure Stamp where
  year : Fin 10000
  month : Nat
  day : Nat
  present : Date.Exists ⟨(year : Nat), month, day⟩
  hour : Fin 24
  minute : Fin 60
  second : Fin 60
  fraction : Option Fraction
  zone : Zone

namespace Stamp

def date (stamp : Stamp) : Date :=
  ⟨(stamp.year : Nat), stamp.month, stamp.day⟩

def nanos (stamp : Stamp) : Nat :=
  stamp.fraction.elim 0 Fraction.nanos

/-- The text of a timestamp. -/
def chars (stamp : Stamp) : List Char :=
  padded 4 stamp.year ++ '-' :: padded 2 stamp.month ++ '-' :: padded 2 stamp.day
    ++ 'T' :: padded 2 stamp.hour ++ ':' :: padded 2 stamp.minute ++ ':' :: padded 2 stamp.second
    ++ stamp.fraction.elim [] Fraction.chars ++ stamp.zone.chars

/-- The instant that a timestamp denotes, on a day that is found by counting. -/
def Denotes (stamp : Stamp) (instant : Instant) : Prop :=
  ∃ days,
    stamp.date.IsDay days
    ∧ instant.seconds
      = 86400 * days + 3600 * stamp.hour + 60 * stamp.minute + stamp.second - stamp.zone.seconds
    ∧ instant.nanos = stamp.nanos

/-- The instant of a timestamp as it is computed. -/
def instant (stamp : Stamp) : Instant :=
  .ofLocal stamp.date stamp.hour stamp.minute stamp.second stamp.nanos stamp.zone.seconds

/-- A timestamp denotes one instant, the computed one. -/
theorem denotes_iff {stamp : Stamp} {instant : Instant}
    : stamp.Denotes instant ↔ instant = stamp.instant := by
  have day {days : Int} : stamp.date.IsDay days ↔ days = stamp.date.dayNumber :=
    Date.isDay_iff stamp.present
  simp only [Denotes, day, exists_eq_left]
  obtain ⟨seconds, nanos⟩ := instant
  simp only [Stamp.instant, Instant.ofLocal, Instant.mk.injEq, secondsPerDay]
  refine and_congr_left fun _ => ?_
  omega

end Stamp

-----------------------------------------------------------------------------------------
-- Digits
-----------------------------------------------------------------------------------------

theorem encodeChars_digits {chars : List Char} (digits : ∀ c ∈ chars, c.isDigit = true)
    : encodeChars chars = chars.map fun c => UInt8.ofNat c.toNat := by
  induction chars with
  | nil => rfl
  | cons c chars ih =>
      obtain ⟨first, rest⟩ := List.forall_mem_cons.mp digits
      have ascii : c.toNat < 0x80 := Nat.lt_trans (visible_of_isDigit first).2 (by decide)
      rw [encodeChars_cons, utf8EncodeChar_of_ascii ascii, ih rest]
      rfl

theorem toNat_ofNat_of_isDigit {c : Char} (digit : c.isDigit = true)
    : (UInt8.ofNat c.toNat).toNat = c.toNat :=
  toNat_ofNat (Nat.lt_trans (visible_of_isDigit digit).2 (by decide))

theorem isDigit_of_mem_encodeChars {chars : List Char} (digits : ∀ c ∈ chars, c.isDigit = true)
    {byte : UInt8} (member : byte ∈ encodeChars chars)
    : isDigit byte = true := by
  rw [encodeChars_digits digits] at member
  obtain ⟨c, inside, rfl⟩ := List.mem_map.mp member
  obtain ⟨low, high⟩ := Char.isDigit_iff_toNat.mp (digits c inside)
  simp only [isDigit, Bool.and_eq_true, decide_eq_true_eq, UInt8.le_iff_toNat_le,
    toNat_ofNat_of_isDigit (digits c inside)]
  exact ⟨low, high⟩

theorem length_encodeChars_digits {chars : List Char} (digits : ∀ c ∈ chars, c.isDigit = true)
    : (encodeChars chars).length = chars.length := by
  rw [encodeChars_digits digits, List.length_map]

theorem number_encodeChars {chars : List Char} (digits : ∀ c ∈ chars, c.isDigit = true)
    : number (encodeChars chars) = Nat.ofDigitChars 10 chars 0 := by
  rw [encodeChars_digits digits, number, List.foldl_map]
  refine Decimal.foldl_digits_eq_ofDigitChars (fun value c member => ?_) 0
  rw [digitValue, toNat_ofNat_of_isDigit (digits c member)]

/-- Bytes that are digits are the bytes of characters that are digits. -/
theorem exists_digits {bytes : List UInt8} (all : ∀ byte ∈ bytes, isDigit byte = true)
    : ∃ chars : List Char, (∀ c ∈ chars, c.isDigit = true) ∧ encodeChars chars = bytes := by
  induction bytes with
  | nil => exact ⟨[], nofun, rfl⟩
  | cons byte bytes ih =>
      obtain ⟨first, rest⟩ := List.forall_mem_cons.mp all
      obtain ⟨chars, digits, own⟩ := ih rest
      simp only [isDigit, Bool.and_eq_true, decide_eq_true_eq, UInt8.le_iff_toNat_le] at first
      obtain ⟨low, high⟩ := first
      change 48 ≤ byte.toNat at low
      change byte.toNat ≤ 57 at high
      have ascii : byte < 0x80 := UInt8.lt_iff_toNat_lt.mpr (Nat.lt_of_le_of_lt high (by decide))
      have valid : byte.toNat.isValidChar := .inl (by omega)
      have value : (charOf byte.toNat).toNat = byte.toNat := by
        rw [charOf, Char.ofNat, dif_pos valid]
        rfl
      refine ⟨charOf byte.toNat :: chars, List.forall_mem_cons.mpr ⟨?_, digits⟩, ?_⟩
      · exact Char.isDigit_iff_toNat.mpr (value.symm ▸ ⟨low, high⟩)
      · rw [encodeChars_cons, utf8EncodeChar_one ascii, own]
        rfl

/-- Digits in the same number that are counted to the same value are the same digits, and are counted
from the same value, by induction on the digits.
-/
theorem eq_of_foldl_digits_eq {first second : List UInt8} {a b : Nat}
    (digits : ∀ byte ∈ first, isDigit byte = true) (others : ∀ byte ∈ second, isDigit byte = true)
    (length : first.length = second.length)
    (same
      : first.foldl (fun value digit => value * 10 + digitValue digit) a
        = second.foldl (fun value digit => value * 10 + digitValue digit) b)
    : a = b ∧ first = second := by
  induction first generalizing second a b with
  | nil =>
      obtain rfl := List.length_eq_zero_iff.mp length.symm
      exact ⟨same, rfl⟩
  | cons byte first ih =>
      cases second with
      | nil => cases length
      | cons other second =>
          obtain ⟨digit, digits⟩ := List.forall_mem_cons.mp digits
          obtain ⟨otherDigit, others⟩ := List.forall_mem_cons.mp others
          obtain ⟨value, rfl⟩ := ih digits others (Nat.succ.inj length) same
          simp only [isDigit, Bool.and_eq_true, decide_eq_true_eq, UInt8.le_iff_toNat_le,
            UInt8.reduceToNat] at digit otherDigit
          dsimp only [digitValue] at value
          have byteSame : byte = other := UInt8.toNat_inj.mp (by omega)
          exact ⟨by omega, by rw [byteSame]⟩

/-- A number is read exactly from its own digits, filled up with zeros to the width. -/
theorem readNumber_eq_ok_iff {width : Nat} {bytes : List UInt8} {n : Nat} (positive : 0 < width)
    (length : bytes.length = width)
    : readNumber bytes = .ok n ↔ n < 10 ^ width ∧ bytes = encodeChars (padded width n) := by
  have value : number (encodeChars (padded width n)) = n := by
    rw [number_encodeChars fun _ => isDigit_of_mem_padded, ← digitsValue_eq, digitsValue_padded]
  have all : ∀ byte ∈ encodeChars (padded width n), isDigit byte = true :=
    fun _ => isDigit_of_mem_encodeChars fun _ => isDigit_of_mem_padded
  constructor
  · intro read
    have fits := length ▸ readNumber_lt read
    have own : (encodeChars (padded width n)).length = width := by
      rw [length_encodeChars_digits fun _ => isDigit_of_mem_padded, length_padded positive fits]
    unfold readNumber at read
    split at read
    case isFalse => cases read
    case isTrue digits =>
      have same : number bytes = number (encodeChars (padded width n)) :=
        (Except.ok.inj read).trans value.symm
      exact ⟨fits,
        (eq_of_foldl_digits_eq (List.all_eq_true.mp digits) all (length.trans own.symm) same).2⟩
  · rintro ⟨_, rfl⟩
    rw [readNumber, if_pos (List.all_eq_true.mpr all), value]

/-- The digits of a number that fits are read as the number. -/
theorem readNumber_encodeChars {width n : Nat} (positive : 0 < width) (fits : n < 10 ^ width)
    : readNumber (encodeChars (padded width n)) = .ok n
      ∧ (encodeChars (padded width n)).length = width := by
  have length : (encodeChars (padded width n)).length = width := by
    rw [length_encodeChars_digits fun _ => isDigit_of_mem_padded, length_padded positive fits]
  exact ⟨(readNumber_eq_ok_iff positive length).mpr ⟨fits, rfl⟩, length⟩

theorem readNumber_pair {a b : UInt8} {n : Nat}
    : readNumber [a, b] = .ok n ↔ n < 100 ∧ [a, b] = encodeChars (padded 2 n) :=
  readNumber_eq_ok_iff (show 0 < 2 by decide) rfl

theorem exists_pair {n : Nat} (fits : n < 100)
    : ∃ a b, encodeChars (padded 2 n) = [a, b] ∧ readNumber [a, b] = .ok n := by
  obtain ⟨read, length⟩ := readNumber_encodeChars (show 0 < 2 by decide) fits
  obtain ⟨a, b, two⟩ := List.length_eq_two.mp length
  exact ⟨a, b, two, two ▸ read⟩

theorem exists_four {n : Nat} (fits : n < 10000)
    : ∃ a b c d, encodeChars (padded 4 n) = [a, b, c, d] ∧ readNumber [a, b, c, d] = .ok n := by
  obtain ⟨read, length⟩ := readNumber_encodeChars (show 0 < 4 by decide) fits
  generalize encodeChars (padded 4 n) = bytes at read length
  match bytes, length with
  | [a, b, c, d], _ => exact ⟨a, b, c, d, rfl, read⟩

-----------------------------------------------------------------------------------------
-- The parts of a timestamp
-----------------------------------------------------------------------------------------

theorem utf8EncodeChar_mark (fraction : Fraction)
    : String.utf8EncodeChar fraction.mark = [0x2E]
      ∨ String.utf8EncodeChar fraction.mark = [0x2C] := by
  rcases fraction.isMark with point | comma
  · exact .inl (by rw [point]; rfl)
  · exact .inr (by rw [comma]; rfl)

/-- Nine digits of a fraction are counted, or as many as there are and zeros for the others. -/
theorem fractionNanos_encodeChars (fraction : Fraction)
    : fractionNanos (encodeChars fraction.digits) = fraction.nanos := by
  have taken
      : (encodeChars fraction.digits).take 9 = encodeChars (fraction.digits.take 9) := by
    rw [encodeChars_digits fraction.isDigit,
      encodeChars_digits fun c member => fraction.isDigit c (List.mem_of_mem_take member),
      List.map_take]
  have counted : number (encodeChars (fraction.digits.take 9))
      = Nat.ofDigitChars 10 (fraction.digits.take 9) 0 :=
    number_encodeChars fun c member => fraction.isDigit c (List.mem_of_mem_take member)
  have zeros : min (9 - fraction.digits.length) 9 = 9 - fraction.digits.length := by omega
  rw [fractionNanos, taken, counted, length_encodeChars_digits fraction.isDigit, Fraction.nanos,
    List.take_append, List.take_replicate, zeros, Nat.ofDigitChars_append,
    Nat.ofDigitChars_replicate_zero, Nat.mul_comm]
  rfl

/-- What is read as a fraction is written as one, in front of what is left. -/
theorem exists_of_readFraction {bytes rest : List UInt8} {nanos : Nat}
    (read : readFraction bytes = .ok (nanos, rest))
    : ∃ fraction : Option Fraction,
        bytes = encodeChars (fraction.elim [] Fraction.chars) ++ rest
        ∧ fraction.elim 0 Fraction.nanos = nanos := by
  unfold readFraction at read
  split at read
  case h_1 =>
    cases read
    exact ⟨none, rfl, rfl⟩
  case h_2 mark behind =>
    dsimp only at read
    split_ifs at read with marked empty
    · cases read
      have run : ∀ byte ∈ behind.takeWhile isDigit, isDigit byte = true :=
        fun _ => List.mem_takeWhile_imp
      obtain ⟨chars, digits, own⟩ := exists_digits run
      have nonempty : chars ≠ [] := by
        rintro rfl
        exact empty (by rw [← own]; rfl)
      have whole : behind = encodeChars chars ++ behind.dropWhile isDigit := by
        rw [own, List.takeWhile_append_dropWhile]
      have told (c : Char) (isMark : c = '.' ∨ c = ',') (byte : String.utf8EncodeChar c = [mark])
          : ∃ fraction : Option Fraction,
              mark :: behind
                = encodeChars (fraction.elim [] Fraction.chars) ++ behind.dropWhile isDigit
              ∧ fraction.elim 0 Fraction.nanos = fractionNanos (encodeChars chars) := by
        let fraction : Fraction := ⟨c, chars, isMark, nonempty, digits⟩
        refine ⟨some fraction, ?_, (fractionNanos_encodeChars fraction).symm⟩
        rw [Option.elim_some, Fraction.chars, encodeChars_cons, byte]
        exact congrArg (mark :: ·) whole
      rw [← own]
      simp only [Bool.or_eq_true, decide_eq_true_eq] at marked
      rcases marked with rfl | rfl
      · exact told '.' (.inl rfl) rfl
      · exact told ',' (.inr rfl) rfl
    · cases read
      exact ⟨none, rfl, rfl⟩

/-- A fraction is read up to a byte that is neither a digit nor a mark. -/
theorem readFraction_append (fraction : Option Fraction) {lead : UInt8} {rest : List UInt8}
    (noDigit : isDigit lead = false) (noPoint : lead ≠ 0x2E) (noComma : lead ≠ 0x2C)
    : readFraction (encodeChars (fraction.elim [] Fraction.chars) ++ lead :: rest)
      = .ok (fraction.elim 0 Fraction.nanos, lead :: rest) := by
  cases fraction with
  | none =>
      have noMark : ¬(decide (lead = 0x2E) || decide (lead = 0x2C)) = true := by
        simp [noPoint, noComma]
      exact if_neg noMark
  | some fraction =>
      have digits : ∀ byte ∈ encodeChars fraction.digits, isDigit byte = true :=
        fun _ => isDigit_of_mem_encodeChars fraction.isDigit
      have run
          : (encodeChars fraction.digits ++ lead :: rest).takeWhile isDigit
            = encodeChars fraction.digits := by
        rw [List.takeWhile_append_of_pos digits, List.takeWhile_cons_of_neg (by simp [noDigit]),
          List.append_nil]
      have behind
          : (encodeChars fraction.digits ++ lead :: rest).dropWhile isDigit = lead :: rest := by
        rw [List.dropWhile_append_of_pos digits, List.dropWhile_cons_of_neg (by simp [noDigit])]
      have some : ¬(encodeChars fraction.digits).isEmpty = true := by
        rw [List.isEmpty_iff_length_eq_zero, length_encodeChars_digits fraction.isDigit]
        exact (List.length_pos_iff.mpr fraction.nonempty).ne'
      have marked {mark : UInt8} (is : mark = 0x2E ∨ mark = 0x2C)
          : readFraction (mark :: (encodeChars fraction.digits ++ lead :: rest))
            = .ok (fraction.nanos, lead :: rest) := by
        unfold readFraction
        dsimp only
        rw [if_pos (by simpa using is), run, behind, if_neg some, fractionNanos_encodeChars]
      rw [Option.elim_some, Option.elim_some, Fraction.chars, encodeChars_cons, List.append_assoc]
      rcases utf8EncodeChar_mark fraction with point | comma
      · rw [point]
        exact marked (.inl rfl)
      · rw [comma]
        exact marked (.inr rfl)

/-- What is read as a zone is written as one. -/
theorem exists_of_readZone {bytes : List UInt8} {offset : Int} (read : readZone bytes = .ok offset)
    : ∃ zone : Zone, bytes = encodeChars zone.chars ∧ zone.seconds = offset := by
  unfold readZone at read
  split at read
  case h_1 =>
    cases read
    exact ⟨.universal, rfl, rfl⟩
  case h_2 sign h1 h2 m1 m2 =>
    split at read
    case isFalse => cases read
    case isTrue signed =>
      obtain ⟨hour, hourRead, read⟩ := bind_eq_ok_iff.mp read
      obtain ⟨minute, minuteRead, read⟩ := bind_eq_ok_iff.mp read
      obtain ⟨inRange, read⟩ := throwIf_eq_ok_iff.mp read
      cases read
      simp only [Bool.or_eq_true, decide_eq_true_eq, not_or, Nat.not_lt] at inRange
      obtain ⟨_, hourText⟩ := readNumber_pair.mp hourRead
      obtain ⟨_, minuteText⟩ := readNumber_pair.mp minuteRead
      have hours : hour < 24 := Nat.lt_succ_of_le inRange.1
      have minutes : minute < 60 := Nat.lt_succ_of_le inRange.2
      have text (c : Char) (same : String.utf8EncodeChar c = [sign])
          : [sign, h1, h2, 0x3A, m1, m2]
            = encodeChars (c :: padded 2 hour ++ ':' :: padded 2 minute) := by
        rw [List.cons_append, encodeChars_cons, encodeChars_append, encodeChars_cons, same,
          ← hourText, ← minuteText]
        rfl
      simp only [Bool.or_eq_true, decide_eq_true_eq] at signed
      rcases signed with rfl | rfl
      · refine ⟨.offset false ⟨hour, hours⟩ ⟨minute, minutes⟩, text '+' rfl, ?_⟩
        simp [Zone.seconds, Int.mul_comm]
      · refine ⟨.offset true ⟨hour, hours⟩ ⟨minute, minutes⟩, text '-' rfl, ?_⟩
        simp [Zone.seconds, Int.mul_comm, Int.add_comm]
  case h_3 => cases read

/-- A zone begins with a byte that ends a fraction, and it is read. -/
theorem exists_readZone (zone : Zone)
    : ∃ lead rest,
        encodeChars zone.chars = lead :: rest
        ∧ isDigit lead = false
        ∧ lead ≠ 0x2E
        ∧ lead ≠ 0x2C
        ∧ readZone (lead :: rest) = .ok zone.seconds := by
  cases zone with
  | universal => exact ⟨0x5A, [], rfl, by decide, by decide, by decide, rfl⟩
  | offset behind hour minute =>
      obtain ⟨h1, h2, hourText, hourRead⟩ := exists_pair (n := hour) (by omega)
      obtain ⟨m1, m2, minuteText, minuteRead⟩ := exists_pair (n := minute) (by omega)
      have inRange : ¬(decide (23 < hour.val) || decide (59 < minute.val)) = true := by
        simp only [Bool.or_eq_true, decide_eq_true_eq]
        omega
      have text (c : Char)
          : encodeChars (c :: padded 2 hour ++ ':' :: padded 2 minute)
            = String.utf8EncodeChar c ++ [h1, h2, 0x3A, m1, m2] := by
        rw [List.cons_append, encodeChars_cons, encodeChars_append, encodeChars_cons, hourText,
          minuteText]
        rfl
      have read {sign : UInt8} (isSign : sign = 0x2B ∨ sign = 0x2D)
          : readZone [sign, h1, h2, 0x3A, m1, m2]
            = .ok (if sign = 0x2D then -((hour * 3600 + minute * 60 : Nat) : Int)
                else (hour * 3600 + minute * 60 : Nat)) := by
        rw [readZone, if_pos (by simpa using isSign)]
        refine bind_eq_ok_iff.mpr ⟨_, hourRead, bind_eq_ok_iff.mpr ⟨_, minuteRead, ?_⟩⟩
        exact throwIf_eq_ok_iff.mpr ⟨inRange, rfl⟩
      cases behind with
      | false =>
          refine ⟨0x2B, _, text '+', by decide, by decide, by decide, (read (.inl rfl)).trans ?_⟩
          simp [Zone.seconds, Int.mul_comm]
      | true =>
          refine ⟨0x2D, _, text '-', by decide, by decide, by decide, (read (.inr rfl)).trans ?_⟩
          simp [Zone.seconds, Int.mul_comm, Int.add_comm]

-----------------------------------------------------------------------------------------
-- Whole timestamps
-----------------------------------------------------------------------------------------

/-- What is read as a timestamp is written as one, and its instant is computed. -/
theorem exists_of_readLayout {bytes : List UInt8} {instant : Instant}
    (read : readLayout bytes = .ok instant)
    : ∃ stamp : Stamp, bytes = encodeChars stamp.chars ∧ instant = stamp.instant := by
  unfold readLayout at read
  split at read
  case h_2 => cases read
  case h_1 =>
    obtain ⟨separated, read⟩ := throwIf_eq_ok_iff.mp read
    obtain ⟨year, yearRead, read⟩ := bind_eq_ok_iff.mp read
    obtain ⟨month, monthRead, read⟩ := bind_eq_ok_iff.mp read
    obtain ⟨day, dayRead, read⟩ := bind_eq_ok_iff.mp read
    obtain ⟨hour, hourRead, read⟩ := bind_eq_ok_iff.mp read
    obtain ⟨minute, minuteRead, read⟩ := bind_eq_ok_iff.mp read
    obtain ⟨second, secondRead, read⟩ := bind_eq_ok_iff.mp read
    obtain ⟨inRange, read⟩ := throwIf_eq_ok_iff.mp read
    obtain ⟨⟨nanos, rest⟩, fractionRead, read⟩ := bind_eq_ok_iff.mp read
    obtain ⟨offset, zoneRead, read⟩ := bind_eq_ok_iff.mp read
    dsimp only at read zoneRead
    split at read
    case isFalse => cases read
    case isTrue valid =>
      cases read
      simp only [Bool.or_eq_true, decide_eq_true_eq, not_or, Nat.not_lt] at inRange
      obtain ⟨⟨hours, minutes⟩, seconds⟩ := inRange
      simp only [Bool.not_eq_true', Bool.not_eq_false, Bool.and_eq_true, decide_eq_true_eq]
        at separated
      obtain ⟨⟨⟨⟨rfl, rfl⟩, rfl⟩, rfl⟩, rfl⟩ := separated
      obtain ⟨years, yearText⟩ := (readNumber_eq_ok_iff (show 0 < 4 by decide) rfl).mp yearRead
      obtain ⟨_, monthText⟩ := readNumber_pair.mp monthRead
      obtain ⟨_, dayText⟩ := readNumber_pair.mp dayRead
      obtain ⟨_, hourText⟩ := readNumber_pair.mp hourRead
      obtain ⟨_, minuteText⟩ := readNumber_pair.mp minuteRead
      obtain ⟨_, secondText⟩ := readNumber_pair.mp secondRead
      obtain ⟨fraction, tail, rfl⟩ := exists_of_readFraction fractionRead
      obtain ⟨zone, rfl, rfl⟩ := exists_of_readZone zoneRead
      let stamp : Stamp :=
        { year := ⟨year, years⟩, month, day, present := Date.isValid_iff_exists.mp valid,
          hour := ⟨hour, Nat.lt_succ_of_le hours⟩, minute := ⟨minute, Nat.lt_succ_of_le minutes⟩,
          second := ⟨second, Nat.lt_succ_of_le seconds⟩, fraction, zone }
      refine ⟨stamp, ?_, rfl⟩
      simp only [stamp, Stamp.chars, encodeChars_append, encodeChars_cons, ← yearText, ← monthText,
        ← dayText, ← hourText, ← minuteText, ← secondText, List.append_assoc, ← tail]
      rfl

/-- A timestamp is read as its instant. -/
theorem readLayout_chars (stamp : Stamp)
    : readLayout (encodeChars stamp.chars) = .ok stamp.instant := by
  have valid := Date.isValid_iff_exists.mpr stamp.present
  obtain ⟨⟨firstMonth, lastMonth⟩, firstDay, lastDay⟩ := Date.bounds_of_isValid valid
  dsimp only at lastMonth lastDay
  obtain ⟨y1, y2, y3, y4, yearText, yearRead⟩ := exists_four stamp.year.isLt
  obtain ⟨o1, o2, monthText, monthRead⟩ := exists_pair (n := stamp.month) (by omega)
  obtain ⟨d1, d2, dayText, dayRead⟩ := exists_pair (n := stamp.day) (by omega)
  obtain ⟨h1, h2, hourText, hourRead⟩ := exists_pair (n := stamp.hour) (by omega)
  obtain ⟨m1, m2, minuteText, minuteRead⟩ := exists_pair (n := stamp.minute) (by omega)
  obtain ⟨c1, c2, secondText, secondRead⟩ := exists_pair (n := stamp.second) (by omega)
  obtain ⟨lead, rest, zoneText, noDigit, noPoint, noComma, zoneRead⟩ := exists_readZone stamp.zone
  have fractionRead
      : readFraction (encodeChars (stamp.fraction.elim [] Fraction.chars) ++ lead :: rest)
        = .ok (stamp.nanos, lead :: rest) :=
    readFraction_append stamp.fraction noDigit noPoint noComma
  obtain ⟨next, behind, tail⟩ := List.exists_cons_of_ne_nil
    (List.append_ne_nil_of_right_ne_nil (encodeChars (stamp.fraction.elim [] Fraction.chars))
      (List.cons_ne_nil lead rest))
  have text
      : encodeChars stamp.chars
        = y1 :: y2 :: y3 :: y4 :: 0x2D :: o1 :: o2 :: 0x2D :: d1 :: d2 :: 0x54 :: h1 :: h2 :: 0x3A
          :: m1 :: m2 :: 0x3A :: c1 :: c2 :: next :: behind := by
    simp only [Stamp.chars, encodeChars_append, encodeChars_cons, yearText, monthText, dayText,
      hourText, minuteText, secondText, zoneText, List.append_assoc, tail]
    rfl
  have inRange
      : ¬(decide (23 < stamp.hour.val) || decide (59 < stamp.minute.val)
          || decide (59 < stamp.second.val)) = true := by
    simp only [Bool.or_eq_true, decide_eq_true_eq]
    omega
  rw [text, readLayout]
  refine throwIf_eq_ok_iff.mpr ⟨by decide, ?_⟩
  refine bind_eq_ok_iff.mpr ⟨_, yearRead, ?_⟩
  refine bind_eq_ok_iff.mpr ⟨_, monthRead, ?_⟩
  refine bind_eq_ok_iff.mpr ⟨_, dayRead, ?_⟩
  refine bind_eq_ok_iff.mpr ⟨_, hourRead, ?_⟩
  refine bind_eq_ok_iff.mpr ⟨_, minuteRead, ?_⟩
  refine bind_eq_ok_iff.mpr ⟨_, secondRead, ?_⟩
  refine throwIf_eq_ok_iff.mpr ⟨inRange, ?_⟩
  refine bind_eq_ok_iff.mpr ⟨_, tail ▸ fractionRead, ?_⟩
  refine bind_eq_ok_iff.mpr ⟨_, zoneRead, ?_⟩
  exact if_pos valid

/-- The strict layout reads the texts of timestamps and nothing else, each as the instant that it
denotes.
-/
theorem readLayout_eq_ok_iff {bytes : List UInt8} {instant : Instant}
    : readLayout bytes = .ok instant
      ↔ ∃ stamp : Stamp, bytes = encodeChars stamp.chars ∧ stamp.Denotes instant := by
  simp only [Stamp.denotes_iff]
  constructor
  · exact exists_of_readLayout
  · rintro ⟨stamp, rfl, rfl⟩
    exact readLayout_chars stamp

end LogIntake.Calendar
