import LogIntake.Proofs.Calendar.LayoutBounds

/-! The strict layout read by positions. Bytes are taken by their places in the text, numbers are
gathered in words of 32 bits, and a loop goes over the digits of a fraction. Whatever could go
wrong in this, a place outside of the text, a value that does not fit or a loop that does not end,
would be a breach. No text leads to one: it is read as the layout reads it, or refused for the same
reason.
-/

namespace LogIntake.Calendar

/-- What must not happen while a text is read by positions: a byte or a stretch is taken from
outside of the text, a difference is below zero, a value does not fit into a word, a word is too
large for a sign, a fraction makes a whole second, it is filled up with no zeros or with more than
eight, the loop goes round more often than there are bytes, or the calendar refuses a time of day
or an offset.
-/
inductive Breach where
  | outside (place : Nat)
  | badStretch (start stop : Nat)
  | negative (whole part : Nat)
  | overflow (value : Nat)
  | unsignable (word : UInt32)
  | wholeSecond (nanos : UInt32)
  | badFilling (zeros : Nat)
  | endless
  | badTime (hour minute second nanos : UInt32)
  | badOffset (seconds : Int)
  deriving Repr, DecidableEq, Inhabited

/-- Why a text that is read by positions gives no instant. -/
inductive Stop where
  | breach (breach : Breach)
  | refused (cause : LayoutError)
  deriving Repr, DecidableEq, Inhabited

abbrev Guarded :=
  Except Stop

namespace Guarded

-----------------------------------------------------------------------------------------
-- Guarded steps
-----------------------------------------------------------------------------------------

/-- Goes on if the condition holds, and is a breach if not. -/
def demand (condition : Prop) [Decidable condition] (breach : Breach) : Guarded Unit :=
  if condition then .ok () else .error (.breach breach)

def byteAt (bytes : List UInt8) (place : Nat) : Guarded UInt8 :=
  match bytes[place]? with
  | some byte => .ok byte
  | none => .error (.breach (.outside place))

/-- The bytes from a place on up to another one. -/
def stretch (bytes : List UInt8) (start stop : Nat) : Guarded (List UInt8) := do
  demand (start ≤ stop ∧ stop ≤ bytes.length) (.badStretch start stop)
  return (bytes.take stop).drop start

/-- The place behind a byte of the text. -/
def nextPlace (bytes : List UInt8) (place : Nat) : Guarded Nat := do
  demand (place < bytes.length) (.outside place)
  return place + 1

def difference (whole part : Nat) : Guarded Nat := do
  demand (part ≤ whole) (.negative whole part)
  return whole - part

/-- The word of a value. -/
def word (value : Nat) : Guarded UInt32 := do
  demand (value < 2 ^ 32) (.overflow value)
  return .ofNat value

/-- The number of a word as one with a sign. -/
def signed (word : UInt32) : Guarded Int := do
  demand (word.toNat < 2 ^ 31) (.unsignable word)
  return word.toNat

-----------------------------------------------------------------------------------------
-- Reading by positions
-----------------------------------------------------------------------------------------

/-- The number with one more digit. -/
def withDigit (value : UInt32) (digit : UInt8) : Guarded UInt32 := do
  let tens ← word (value.toNat * 10)
  let ones ← difference digit.toNat 0x30
  word (tens.toNat + ones)

def readNumber (digits : List UInt8) : Guarded UInt32 :=
  digits.foldlM (fun value digit =>
    if isDigit digit then withDigit value digit else throw (.refused .expectedDigit)) 0

/-- The number in a stretch of the text. -/
def numberAt (bytes : List UInt8) (start stop : Nat) : Guarded UInt32 := do
  readNumber (← stretch bytes start stop)

/-- Where the loop over the digits of a fraction stands, and the nanoseconds it has gathered. -/
structure Passage where
  place : Nat
  nanos : UInt32
  deriving Repr, DecidableEq, Inhabited

/-- The nanoseconds with one more digit behind those passed. Nine digits count, and further ones
are dropped.
-/
def withFractionDigit (passed : Nat) (nanos : UInt32) (digit : UInt8) : Guarded UInt32 :=
  if passed < 9 then withDigit nanos digit else return nanos

/-- A round of the loop over digits that start at a place: none if the text ends or goes on with
something else.
-/
def round? (bytes : List UInt8) (start : Nat) (passage : Passage) : Guarded (Option Passage) := do
  if bytes.length ≤ passage.place then return none
  let digit ← byteAt bytes passage.place
  if !isDigit digit then return none
  let passed ← difference passage.place start
  let nanos ← withFractionDigit passed passage.nanos digit
  demand (nanos.toNat < nanosPerSecond) (.wholeSecond nanos)
  let place ← nextPlace bytes passage.place
  return some ⟨place, nanos⟩

/-- The rounds of the loop, whose number the first argument bounds. -/
def rounds (bytes : List UInt8) (start : Nat) : Nat → Passage → Guarded Passage
  | 0, _ => throw (.breach .endless)
  | bound + 1, passage => do
      match ← round? bytes start passage with
      | none => return passage
      | some next => rounds bytes start bound next

/-- Fills up the nanoseconds of fewer than nine digits with zeros. -/
def filledUp (nanos : UInt32) (digits : Nat) : Guarded UInt32 := do
  let zeros ← difference 9 digits
  demand (1 ≤ zeros ∧ zeros ≤ 8) (.badFilling zeros)
  let scale ← word (10 ^ zeros)
  let nanos ← word (nanos.toNat * scale.toNat)
  demand (nanos.toNat < nanosPerSecond) (.wholeSecond nanos)
  return nanos

/-- Ends a fraction whose digits start at a place. -/
def endFraction (start : Nat) (passage : Passage) : Guarded Passage := do
  let digits ← difference passage.place start
  if digits = 0 then throw (.refused .missingFraction)
  if digits < 9 then return ⟨passage.place, ← filledUp passage.nanos digits⟩
  else return passage

/-- Reads the fraction of a second if there is one at a place. -/
def readFraction (bytes : List UInt8) (place : Nat) : Guarded Passage := do
  let mark ← byteAt bytes place
  if mark = 0x2E || mark = 0x2C then
    let start ← nextPlace bytes place
    endFraction start (← rounds bytes start bytes.length ⟨start, 0⟩)
  else return ⟨place, 0⟩

/-- Reads the offset from universal time, in seconds. -/
def readZone : List UInt8 → Guarded Int
  | [0x5A] => return 0
  | [sign, h1, h2, 0x3A, m1, m2] =>
      if sign = 0x2B || sign = 0x2D then do
        let hour ← readNumber [h1, h2]
        let minute ← readNumber [m1, m2]
        if 23 < hour || 59 < minute then throw (.refused .offsetOutOfRange)
        let hours ← word (hour.toNat * 3600)
        let minutes ← word (minute.toNat * 60)
        let seconds ← signed (← word (hours.toNat + minutes.toNat))
        return if sign = 0x2D then -seconds else seconds
      else throw (.refused .expectedZone)
  | _ => throw (.refused .expectedZone)

/-- The places of the separators. -/
def separators : List (Nat × UInt8) :=
  [(4, 0x2D), (7, 0x2D), (10, 0x54), (13, 0x3A), (16, 0x3A)]

def passSeparators (bytes : List UInt8) : List (Nat × UInt8) → Guarded Unit
  | [] => return ()
  | (place, separator) :: rest => do
      let byte ← byteAt bytes place
      if byte ≠ separator then throw (.refused .unexpectedSeparator)
      passSeparators bytes rest

/-- The instant of a date and a time of day, both of which the calendar has to admit. -/
def localInstant (date : Date) (hour minute second nanos : UInt32) (offset : Int)
    : Guarded Instant := do
  if !date.isValid then throw (.refused .dateOutOfRange)
  demand (hour < 24 ∧ minute < 60 ∧ second < 60 ∧ nanos.toNat < nanosPerSecond)
    (.badTime hour minute second nanos)
  demand (offset.natAbs < secondsPerDay) (.badOffset offset)
  return .ofLocal date hour.toNat minute.toNat second.toNat nanos.toNat offset

/-- Reads a timestamp by positions. -/
def readLayout (bytes : List UInt8) : Guarded Instant := do
  if bytes.length < 20 then throw (.refused .tooShort)
  passSeparators bytes separators
  let year ← numberAt bytes 0 4
  let month ← numberAt bytes 5 7
  let day ← numberAt bytes 8 10
  let hour ← numberAt bytes 11 13
  let minute ← numberAt bytes 14 16
  let second ← numberAt bytes 17 19
  if 23 < hour || 59 < minute || 59 < second then throw (.refused .timeOutOfRange)
  let passage ← readFraction bytes 19
  let offset ← readZone (← stretch bytes passage.place bytes.length)
  let date : Date := ⟨← signed year, month.toNat, day.toNat⟩
  localInstant date hour minute second passage.nanos offset

-----------------------------------------------------------------------------------------
-- Following the layout
-----------------------------------------------------------------------------------------

/-- Reading by positions follows the layout: it succeeds with a value that fits, or is refused for
the same reason, and it is no breach in either case.
-/
inductive Follows {α β : Type} (fits : α → β → Prop) : Except LayoutError α → Guarded β → Prop
  | ok {value own} (fit : fits value own) : Follows fits (.ok value) (.ok own)
  | refused (cause : LayoutError) : Follows fits (.error cause) (.error (.refused cause))

section Follows

variable {α β γ δ : Type} {fits : α → β → Prop} {further : γ → δ → Prop}

/-- What follows the layout step by step follows it as a whole. -/
theorem Follows.bind {plain : Except LayoutError α} {own : Guarded β}
    {next : α → Except LayoutError γ} {ownNext : β → Guarded δ} (first : Follows fits plain own)
    (rest
      : ∀ value own,
          plain = .ok value → fits value own → Follows further (next value) (ownNext own))
    : Follows further (plain >>= next) (own >>= ownNext) := by
  cases first with
  | ok fit => exact rest _ _ rfl fit
  | refused cause => exact .refused cause

/-- A test that the layout makes too is passed or refused by both. -/
theorem Follows.unless {test ownTest : Prop} [Decidable test] [Decidable ownTest]
    {cause : LayoutError} {next : Unit → Except LayoutError γ} {ownNext : Unit → Guarded δ}
    (same : ownTest ↔ test) (rest : ¬test → Follows further (next ()) (ownNext ()))
    : Follows further (if test then (throw cause : Except LayoutError Unit) >>= next else next ())
        (if ownTest then (throw (.refused cause) : Guarded Unit) >>= ownNext else ownNext ()) := by
  by_cases holds : test
  · rw [if_pos holds, if_pos (same.mpr holds)]
    exact .refused cause
  · rw [if_neg holds, if_neg fun own => holds (same.mp own)]
    exact rest holds

/-- A step that the layout does not make only has to succeed. -/
theorem Follows.after {plain : Except LayoutError γ} {own : Guarded β} {value : β}
    {ownNext : β → Guarded δ} (done : own = .ok value)
    (rest : Follows further plain (ownNext value))
    : Follows further plain (own >>= ownNext) := by
  rw [done]
  exact rest

/-- What follows the layout with the same value in the end is the layout with its refusals. -/
theorem Follows.eq_mapError {plain : Except LayoutError α} {own : Guarded α}
    (follows : Follows Eq plain own)
    : own = plain.mapError .refused := by
  cases follows with
  | ok fit => rw [fit]; rfl
  | refused cause => rfl

end Follows

-----------------------------------------------------------------------------------------
-- Steps that are no breach
-----------------------------------------------------------------------------------------

theorem demand_eq {condition : Prop} [Decidable condition] {breach : Breach} (holds : condition)
    : demand condition breach = .ok () :=
  if_pos holds

theorem byteAt_eq {bytes : List UInt8} {place : Nat} {byte : UInt8}
    (there : bytes[place]? = some byte)
    : byteAt bytes place = .ok byte := by
  rw [byteAt, there]

theorem stretch_eq {bytes : List UInt8} {start stop : Nat}
    (inside : start ≤ stop ∧ stop ≤ bytes.length)
    : stretch bytes start stop = .ok ((bytes.take stop).drop start) := by
  rw [stretch, demand_eq inside]
  rfl

theorem nextPlace_eq {bytes : List UInt8} {place : Nat} (inside : place < bytes.length)
    : nextPlace bytes place = .ok (place + 1) := by
  rw [nextPlace, demand_eq inside]
  rfl

theorem difference_eq {whole part : Nat} (within : part ≤ whole)
    : difference whole part = .ok (whole - part) := by
  rw [difference, demand_eq within]
  rfl

theorem word_eq {value : Nat} (fits : value < 2 ^ 32) : word value = .ok (.ofNat value) := by
  rw [word, demand_eq fits]
  rfl

theorem signed_eq {word : UInt32} (fits : word.toNat < 2 ^ 31)
    : signed word = .ok (word.toNat : Int) := by
  rw [signed, demand_eq fits]
  rfl

theorem toNat_word {value : Nat} (fits : value < 2 ^ 32) : (UInt32.ofNat value).toNat = value :=
  UInt32.toNat_ofNat_of_lt' fits

-----------------------------------------------------------------------------------------
-- Numbers
-----------------------------------------------------------------------------------------

/-- A word holds a number. -/
def Holds (n : Nat) (word : UInt32) : Prop :=
  word.toNat = n

theorem withDigit_eq {value : Nat} {digit : UInt8} (fits : value * 10 + 9 < 2 ^ 32)
    (isDigit : Calendar.isDigit digit = true)
    : withDigit (.ofNat value) digit = .ok (.ofNat (value * 10 + digitValue digit)) := by
  have small : value < 2 ^ 32 := by omega
  have tens : value * 10 < 2 ^ 32 := by omega
  have single := digitValue_le_nine isDigit
  have atLeast : 0x30 ≤ digit.toNat := by
    simp only [Calendar.isDigit, Bool.and_eq_true, decide_eq_true_eq, UInt8.le_iff_toNat_le]
      at isDigit
    exact isDigit.1
  rw [withDigit, toNat_word small, word_eq tens, difference_eq atLeast]
  change word ((UInt32.ofNat (value * 10)).toNat + digitValue digit) = _
  rw [toNat_word tens, word_eq (by omega)]

/-- Digits are gathered in a word as long as it has room for as many, by induction on the digits. -/
theorem foldlM_withDigit {digits : List UInt8} {value : Nat}
    (room : (value + 1) * 10 ^ digits.length ≤ 2 ^ 32)
    : digits.foldlM (fun value digit =>
          if isDigit digit then withDigit value digit else throw (.refused .expectedDigit))
        (UInt32.ofNat value)
      = if digits.all isDigit then
          .ok (.ofNat (digits.foldl (fun value digit => value * 10 + digitValue digit) value))
        else .error (.refused .expectedDigit) := by
  induction digits generalizing value with
  | nil => rfl
  | cons digit digits ih =>
      rw [List.length_cons, Nat.pow_succ', ← Nat.mul_assoc] at room
      have positive : 0 < 10 ^ digits.length := Nat.pow_pos (by decide)
      rw [List.foldlM_cons, List.all_cons, List.foldl_cons]
      by_cases own : isDigit digit = true
      · have single := digitValue_le_nine own
        have fits : value * 10 + 9 < 2 ^ 32 := by
          have most := Nat.le_trans (Nat.le_mul_of_pos_right _ positive) room
          omega
        have less : value * 10 + digitValue digit + 1 ≤ (value + 1) * 10 := by omega
        rw [if_pos own, withDigit_eq fits own, own, Bool.true_and]
        exact ih (Nat.le_trans (Nat.mul_le_mul_right _ less) room)
      · rw [if_neg own, Bool.eq_false_iff.mpr own, Bool.false_and]
        rfl

/-- Numbers of up to nine places are gathered without a breach. -/
theorem follows_readNumber {digits : List UInt8} (short : digits.length ≤ 9)
    : Follows Holds (Calendar.readNumber digits) (readNumber digits) := by
  have most : 10 ^ digits.length ≤ 10 ^ 9 := Nat.pow_le_pow_right (by decide) short
  have room : (0 + 1) * 10 ^ digits.length ≤ 2 ^ 32 := by omega
  have gathered := foldlM_withDigit room
  rw [readNumber, Calendar.readNumber]
  refine gathered ▸ ?_
  split
  case isTrue all =>
    have bound : number digits < 10 ^ digits.length := number_lt (List.all_eq_true.mp all)
    have fits : number digits < 2 ^ 32 := by omega
    exact .ok (toNat_word fits)
  case isFalse => exact .refused _

/-- Ten places would be too many for a word. -/
example : readNumber (.replicate 10 0x39) = .error (.breach (.overflow 9999999990)) := by decide

theorem follows_numberAt {bytes digits : List UInt8} {start stop : Nat}
    (inside : start ≤ stop ∧ stop ≤ bytes.length) (taken : (bytes.take stop).drop start = digits)
    (short : digits.length ≤ 9)
    : Follows Holds (Calendar.readNumber digits) (numberAt bytes start stop) := by
  refine .after (stretch_eq inside) ?_
  rw [taken]
  exact follows_readNumber short

-----------------------------------------------------------------------------------------
-- Fractions
-----------------------------------------------------------------------------------------

theorem number_append (digits : List UInt8) (digit : UInt8)
    : number (digits ++ [digit]) = number digits * 10 + digitValue digit := by
  rw [number, List.foldl_append]
  rfl

/-- Where the loop stands that has passed some digits behind the front of a text. -/
def gathered (front seen : List UInt8) : Passage :=
  ⟨front.length + seen.length, .ofNat (number (seen.take 9))⟩

/-- The ninth digit and the ones before it count, and no further one does. -/
theorem number_take_append (seen : List UInt8) (digit : UInt8)
    : number ((seen ++ [digit]).take 9)
      = if seen.length < 9 then number (seen.take 9) * 10 + digitValue digit
        else number (seen.take 9) := by
  split
  case isTrue few =>
    rw [List.take_of_length_le (by simp; omega), List.take_of_length_le (by omega), number_append]
  case isFalse many => rw [List.take_append_of_le_length (by omega)]

/-- Nine digits stay below a second, and so do fewer. -/
theorem number_take_lt_second {seen : List UInt8} (all : ∀ byte ∈ seen, isDigit byte = true)
    : number (seen.take 9) < nanosPerSecond :=
  calc
    number (seen.take 9) < 10 ^ min 9 seen.length := number_take_lt all
    _ ≤ 10 ^ 9 := Nat.pow_le_pow_right (by decide) (Nat.min_le_left _ _)

/-- A digit behind those that have been passed is gathered without a breach. -/
theorem withFractionDigit_eq {front seen : List UInt8} {digit : UInt8}
    (all : ∀ byte ∈ seen ++ [digit], isDigit byte = true)
    : withFractionDigit seen.length (gathered front seen).nanos digit
      = .ok (gathered front (seen ++ [digit])).nanos := by
  have before := number_take_lt fun byte member => all byte (List.mem_append_left _ member)
  simp only [gathered]
  rw [withFractionDigit, number_take_append]
  split
  case isTrue few =>
    have most : 10 ^ min 9 seen.length ≤ 10 ^ 8 := Nat.pow_le_pow_right (by decide) (by omega)
    exact withDigit_eq (by omega) (all digit (by simp))
  case isFalse => rfl

theorem toNat_gathered (front : List UInt8) {seen : List UInt8}
    (all : ∀ byte ∈ seen, isDigit byte = true)
    : (gathered front seen).nanos.toNat = number (seen.take 9) :=
  toNat_word (Nat.lt_trans (number_take_lt_second all) (by decide))

theorem difference_gathered (front seen : List UInt8)
    : difference (gathered front seen).place front.length = .ok seen.length := by
  have within : front.length ≤ (gathered front seen).place := Nat.le_add_right _ _
  rw [difference_eq within]
  exact congrArg Except.ok (Nat.add_sub_cancel_left ..)

/-- The loop stands at the byte behind those that it has passed. -/
theorem gathered_stands (front seen : List UInt8) (next : UInt8) (rest : List UInt8)
    : (gathered front seen).place < (front ++ (seen ++ next :: rest)).length
      ∧ (front ++ (seen ++ next :: rest))[(gathered front seen).place]? = some next := by
  constructor
  · simp [gathered]
  · simp [gathered]

/-- A round that finds a digit passes it, and gathers it as long as there are fewer than nine. -/
theorem round?_digit {front seen rest : List UInt8} {digit : UInt8}
    (all : ∀ byte ∈ seen ++ [digit], isDigit byte = true)
    : round? (front ++ (seen ++ digit :: rest)) front.length (gathered front seen)
      = .ok (some (gathered front (seen ++ [digit]))) := by
  obtain ⟨inside, there⟩ := gathered_stands front seen digit rest
  have next : (gathered front seen).place + 1 = (gathered front (seen ++ [digit])).place := by
    simp [gathered, Nat.add_assoc]
  rw [round?, if_neg (Nat.not_le.mpr inside), byteAt_eq there, difference_gathered,
    nextPlace_eq inside, next]
  change (if !isDigit digit then _ else (withFractionDigit seen.length _ digit >>= _)) = _
  rw [all digit (by simp), withFractionDigit_eq all]
  change (demand _ _ >>= _) = _
  rw [demand_eq (toNat_gathered front all ▸ number_take_lt_second all)]
  rfl

/-- A round ends the loop behind the last digit. -/
theorem round?_end {front seen rest : List UInt8} (noDigit : rest.takeWhile isDigit = [])
    : round? (front ++ (seen ++ rest)) front.length (gathered front seen) = .ok none := by
  cases rest with
  | nil =>
      have past : (front ++ (seen ++ [])).length ≤ (gathered front seen).place := by
        simp [gathered]
      rw [round?, if_pos past]
      rfl
  | cons byte rest =>
      obtain ⟨inside, there⟩ := gathered_stands front seen byte rest
      have other : isDigit byte = false := by
        by_contra digit
        simp [List.takeWhile_cons, digit] at noDigit
      rw [round?, if_neg (Nat.not_le.mpr inside), byteAt_eq there]
      change (if !isDigit byte then _ else _) = _
      rw [other]
      rfl

/-- The loop passes the digits that a text goes on with, and it ends within as many rounds as there
are bytes, by induction on these bytes.
-/
theorem rounds_eq {front seen rest : List UInt8} {bound : Nat}
    (all : ∀ byte ∈ seen, isDigit byte = true) (enough : rest.length < bound)
    : rounds (front ++ (seen ++ rest)) front.length bound (gathered front seen)
      = .ok (gathered front (seen ++ rest.takeWhile isDigit)) := by
  induction rest generalizing seen bound with
  | nil =>
      obtain ⟨bound, rfl⟩ := Nat.exists_eq_add_one_of_ne_zero (Nat.ne_zero_of_lt enough)
      rw [rounds, round?_end rfl, List.takeWhile_nil, List.append_nil]
      rfl
  | cons byte rest ih =>
      obtain ⟨bound, rfl⟩ := Nat.exists_eq_add_one_of_ne_zero (Nat.ne_zero_of_lt enough)
      by_cases digit : isDigit byte = true
      · have further : ∀ own ∈ seen ++ [byte], isDigit own = true := by
          simpa [or_imp, forall_and, digit] using all
        have shifted : seen ++ byte :: rest = (seen ++ [byte]) ++ rest := by simp
        rw [rounds, round?_digit further, List.takeWhile_cons_of_pos digit, shifted]
        change rounds _ _ bound _ = _
        rw [ih further (Nat.lt_of_succ_lt_succ enough), List.append_assoc]
        rfl
      · have none : (byte :: rest).takeWhile isDigit = [] := List.takeWhile_cons_of_neg digit
        rw [rounds, round?_end none, none, List.append_nil]
        rfl

/-- The loop behind a mark, from its start on. -/
theorem rounds_behind (front : List UInt8) (mark : UInt8) (rest : List UInt8)
    : rounds (front ++ mark :: rest) (front.length + 1) (front ++ mark :: rest).length
          ⟨front.length + 1, 0⟩
      = .ok (gathered (front ++ [mark]) (rest.takeWhile isDigit)) := by
  have text : front ++ mark :: rest = (front ++ [mark]) ++ ([] ++ rest) := by simp
  have start : front.length + 1 = (front ++ [mark]).length := by simp
  rw [text, start]
  exact rounds_eq (List.forall_mem_nil _) (by simp; omega)

/-- Fewer than nine digits are filled up with one to eight zeros. -/
theorem filledUp_eq (front : List UInt8) {seen : List UInt8}
    (all : ∀ byte ∈ seen, isDigit byte = true) (nonempty : seen ≠ []) (few : seen.length < 9)
    : filledUp (gathered front seen).nanos seen.length = .ok (.ofNat (fractionNanos seen)) := by
  have positive := List.length_pos_iff.mpr nonempty
  have bound : fractionNanos seen < nanosPerSecond := fractionNanos_lt all
  have scaleBound : 10 ^ (9 - seen.length) ≤ 10 ^ 8 :=
    Nat.pow_le_pow_right (by decide) (by omega)
  have scaled
      : (gathered front seen).nanos.toNat * (UInt32.ofNat (10 ^ (9 - seen.length))).toNat
        = fractionNanos seen := by
    rw [toNat_gathered front all, toNat_word (by omega)]
    rfl
  have fits : fractionNanos seen < 2 ^ 32 := Nat.lt_trans bound (by decide)
  rw [filledUp, difference_eq (by omega)]
  change (demand _ _ >>= _) = _
  rw [demand_eq (by omega), word_eq (by omega)]
  change (word (_ * _) >>= _) = _
  rw [scaled, word_eq fits]
  change (demand _ _ >>= _) = _
  rw [demand_eq (by rw [toNat_word fits]; exact bound)]
  rfl

theorem endFraction_eq (front : List UInt8) {seen : List UInt8}
    (all : ∀ byte ∈ seen, isDigit byte = true)
    : endFraction front.length (gathered front seen)
      = if seen.isEmpty then .error (.refused .missingFraction)
        else .ok ⟨(gathered front seen).place, .ofNat (fractionNanos seen)⟩ := by
  rw [endFraction, difference_gathered]
  cases seen with
  | nil => rfl
  | cons digit seen =>
      change (if (digit :: seen).length < 9 then filledUp _ _ >>= _ else _) = _
      split
      case isTrue few =>
        rw [filledUp_eq front all (List.cons_ne_nil _ _) few]
        rfl
      case isFalse many =>
        have noZeros : 9 - (digit :: seen).length = 0 := Nat.sub_eq_zero_of_le (Nat.not_lt.mp many)
        have nanos : fractionNanos (digit :: seen) = number ((digit :: seen).take 9) := by
          rw [fractionNanos, noZeros]
          exact Nat.mul_one _
        rw [nanos]
        rfl

/-- The passage behind a fraction: it has the nanoseconds that were read, and stands before the rest
of the text.
-/
structure Passed (bytes : List UInt8) (read : Nat × List UInt8) (passage : Passage) : Prop where
  nanos : Holds read.1 passage.nanos
  inside : passage.place ≤ bytes.length
  rest : bytes.drop passage.place = read.2

/-- A passage over all digits stands before the rest of the text. -/
theorem passed_gathered (front rest : List UInt8) {nanos : UInt32} {value : Nat}
    (holds : Holds value nanos)
    : Passed (front ++ rest) (value, rest.dropWhile isDigit)
        ⟨(gathered front (rest.takeWhile isDigit)).place, nanos⟩ := by
  have text : front ++ rest = (front ++ rest.takeWhile isDigit) ++ rest.dropWhile isDigit := by
    rw [List.append_assoc, List.takeWhile_append_dropWhile]
  have place
      : (gathered front (rest.takeWhile isDigit)).place
        = (front ++ rest.takeWhile isDigit).length :=
    List.length_append.symm
  rw [place, text]
  refine ⟨holds, ?_, List.drop_left⟩
  rw [(front ++ rest.takeWhile isDigit).length_append]
  exact Nat.le_add_right _ _

/-- A fraction of any length is read without a breach, at the end of the text too. -/
theorem follows_readFraction (front : List UInt8) (mark : UInt8) (rest : List UInt8)
    : Follows (Passed (front ++ mark :: rest)) (Calendar.readFraction (mark :: rest))
        (readFraction (front ++ mark :: rest) front.length) := by
  have there : (front ++ mark :: rest)[front.length]? = some mark := by simp
  have inside : front.length < (front ++ mark :: rest).length := by simp
  have all : ∀ byte ∈ rest.takeWhile isDigit, isDigit byte = true :=
    fun _ member => List.mem_takeWhile_imp member
  have start : front.length + 1 = (front ++ [mark]).length := by simp
  rw [readFraction, byteAt_eq there, nextPlace_eq inside, Calendar.readFraction]
  change Follows _ _ (if mark = 0x2E || mark = 0x2C then rounds _ _ _ _ >>= _ else _)
  rw [rounds_behind]
  change Follows _ _ (if _ then endFraction _ _ else _)
  rw [start, endFraction_eq _ all]
  by_cases fraction : (mark = 0x2E || mark = 0x2C) = true
  · rw [if_pos fraction, if_pos fraction]
    dsimp only
    split
    case isTrue => exact .refused _
    case isFalse =>
      have fits : fractionNanos (rest.takeWhile isDigit) < 2 ^ 32 :=
        Nat.lt_trans (fractionNanos_lt all) (by decide)
      have text : front ++ mark :: rest = (front ++ [mark]) ++ rest := by simp
      rw [text]
      exact .ok (passed_gathered _ rest (toNat_word fits))
  · rw [if_neg fraction, if_neg fraction]
    exact .ok ⟨rfl, by simp, by simp⟩

-----------------------------------------------------------------------------------------
-- Zones and separators
-----------------------------------------------------------------------------------------

theorem follows_readZone (bytes : List UInt8)
    : Follows Eq (Calendar.readZone bytes) (readZone bytes) := by
  unfold Calendar.readZone
  split
  case h_1 => exact .ok rfl
  case h_2 sign h1 h2 m1 m2 =>
    rw [readZone]
    by_cases signed : (sign = 0x2B || sign = 0x2D) = true
    · rw [if_pos signed, if_pos signed]
      refine .bind (follows_readNumber (by simp)) fun _ hour _ hourHolds => ?_
      refine .bind (follows_readNumber (by simp)) fun _ minute _ minuteHolds => ?_
      cases hourHolds
      cases minuteHolds
      have same
          : (23 < hour || 59 < minute) = true ↔ (23 < hour.toNat || 59 < minute.toNat) = true := by
        simp only [UInt32.lt_iff_toNat_lt]
        rfl
      refine .unless same fun inRange => ?_
      simp only [Bool.or_eq_true, decide_eq_true_eq, not_or, Nat.not_lt] at inRange
      refine .after (word_eq (by omega)) (.after (word_eq (by omega)) ?_)
      rw [toNat_word (by omega), toNat_word (by omega)]
      refine .after (word_eq (by omega)) (.after (signed_eq (by rw [toNat_word] <;> omega)) ?_)
      rw [toNat_word (by omega)]
      exact .ok rfl
    · rw [if_neg signed, if_neg signed]
      exact .refused _
  case h_3 noUniversal noOffset =>
    rw [readZone.eq_3 bytes noUniversal noOffset]
    exact .refused _

/-- Separators at places of the text are passed, or refused if one of them differs, by induction on
the separators.
-/
theorem passSeparators_eq {bytes : List UInt8} {marks : List (Nat × UInt8)}
    (inside : ∀ mark ∈ marks, mark.1 < bytes.length)
    : passSeparators bytes marks
      = if marks.all fun mark => bytes[mark.1]? = some mark.2 then .ok ()
        else .error (.refused .unexpectedSeparator) := by
  induction marks with
  | nil => rfl
  | cons mark marks ih =>
      obtain ⟨own, further⟩ := List.forall_mem_cons.mp inside
      obtain ⟨byte, there⟩ : ∃ byte, bytes[mark.1]? = some byte :=
        ⟨_, List.getElem?_eq_getElem own⟩
      rw [passSeparators, byteAt_eq there, List.all_cons, there]
      change (if byte ≠ mark.2 then _ else passSeparators bytes marks) = _
      rw [ih further]
      by_cases same : byte = mark.2
      · rw [if_neg (not_not.mpr same), same, decide_eq_true rfl, Bool.true_and]
      · rw [if_pos same, decide_eq_false (mt Option.some.inj same), Bool.false_and]
        rfl

-----------------------------------------------------------------------------------------
-- The whole layout
-----------------------------------------------------------------------------------------

theorem readLayout_short {bytes : List UInt8} (short : bytes.length < 20)
    : Calendar.readLayout bytes = .error .tooShort := by
  unfold Calendar.readLayout
  split
  case h_1 =>
    simp only [List.length_cons] at short
    omega
  case h_2 => rfl

/-- A text of twenty bytes or more has a byte in each place of the layout. -/
theorem exists_places {bytes : List UInt8} (long : 20 ≤ bytes.length)
    : ∃ y1 y2 y3 y4 s1 o1 o2 s2 d1 d2 s3 h1 h2 s4 m1 m2 s5 c1 c2 next rest,
        bytes
        = y1 :: y2 :: y3 :: y4 :: s1 :: o1 :: o2 :: s2 :: d1 :: d2 :: s3 :: h1 :: h2 :: s4 :: m1
          :: m2 :: s5 :: c1 :: c2 :: next :: rest := by
  iterate 20
    obtain _ | ⟨_, bytes⟩ := bytes
    · simp at long
  exact ⟨_, _, _, _, _, _, _, _, _, _, _, _, _, _, _, _, _, _, _, _, _, rfl⟩

/-- The calendar admits a time of day and an offset that have been read, so only the date is tested.
-/
theorem follows_localInstant (date : Date) {hour minute second nanos : UInt32} {offset : Int}
    (inRange : (hour.toNat ≤ 23 ∧ minute.toNat ≤ 59) ∧ second.toNat ≤ 59)
    (small : nanos.toNat < nanosPerSecond) (near : offset.natAbs < secondsPerDay)
    : Follows Eq
        (if date.isValid then
          pure (.ofLocal date hour.toNat minute.toNat second.toNat nanos.toNat offset)
        else throw .dateOutOfRange)
        (localInstant date hour minute second nanos offset) := by
  have admitted : hour < 24 ∧ minute < 60 ∧ second < 60 ∧ nanos.toNat < nanosPerSecond := by
    simp only [UInt32.lt_iff_toNat_lt]
    exact ⟨Nat.lt_succ_of_le inRange.1.1, Nat.lt_succ_of_le inRange.1.2,
      Nat.lt_succ_of_le inRange.2, small⟩
  rw [localInstant, demand_eq admitted, demand_eq near]
  cases date.isValid with
  | true => exact .ok rfl
  | false => exact .refused _

/-- A text is read by positions as the layout reads it. -/
theorem follows_readLayout (bytes : List UInt8)
    : Follows Eq (Calendar.readLayout bytes) (readLayout bytes) := by
  by_cases short : bytes.length < 20
  · rw [readLayout_short short, readLayout, if_pos short]
    exact .refused _
  obtain ⟨y1, y2, y3, y4, s1, o1, o2, s2, d1, d2, s3, h1, h2, s4, m1, m2, s5, c1, c2, next, rest,
    rfl⟩ := exists_places (Nat.not_lt.mp short)
  rw [readLayout, if_neg short, Calendar.readLayout, passSeparators_eq (by simp [separators])]
  have marks
      : (separators.all fun mark =>
          (y1 :: y2 :: y3 :: y4 :: s1 :: o1 :: o2 :: s2 :: d1 :: d2 :: s3 :: h1 :: h2 :: s4 :: m1
            :: m2 :: s5 :: c1 :: c2 :: next :: rest)[mark.1]? = some mark.2)
        = (s1 = 0x2D && s2 = 0x2D && s3 = 0x54 && s4 = 0x3A && s5 = 0x3A) := by
    simp [separators, Bool.and_assoc]
  rw [marks]
  cases (s1 = 0x2D && s2 = 0x2D && s3 = 0x54 && s4 = 0x3A && s5 = 0x3A : Bool) with
  | false => exact .refused _
  | true =>
      change Follows Eq (Calendar.readNumber _ >>= _) (numberAt _ _ _ >>= _)
      refine .bind (follows_numberAt (by simp) rfl (by simp)) fun _ year yearRead yearHolds => ?_
      refine .bind (follows_numberAt (by simp) rfl (by simp)) fun _ month _ monthHolds => ?_
      refine .bind (follows_numberAt (by simp) rfl (by simp)) fun _ day _ dayHolds => ?_
      refine .bind (follows_numberAt (by simp) rfl (by simp)) fun _ hour _ hourHolds => ?_
      refine .bind (follows_numberAt (by simp) rfl (by simp)) fun _ minute _ minuteHolds => ?_
      refine .bind (follows_numberAt (by simp) rfl (by simp)) fun _ second _ secondHolds => ?_
      cases yearHolds
      cases monthHolds
      cases dayHolds
      cases hourHolds
      cases minuteHolds
      cases secondHolds
      -- Words are compared as the numbers that they hold.
      have same
          : (23 < hour || 59 < minute || 59 < second) = true
            ↔ (23 < hour.toNat || 59 < minute.toNat || 59 < second.toNat) = true := by
        simp only [UInt32.lt_iff_toNat_lt]
        rfl
      refine .unless same fun inRange => ?_
      simp only [Bool.or_eq_true, decide_eq_true_eq, not_or, Nat.not_lt] at inRange
      -- The fraction stands behind nineteen bytes, and the zone where the loop has ended.
      have fraction :=
        follows_readFraction
          [y1, y2, y3, y4, s1, o1, o2, s2, d1, d2, s3, h1, h2, s4, m1, m2, s5, c1, c2] next rest
      refine fraction.bind fun ⟨nanos, behind⟩ passage fractionRead passed => ?_
      have nanosHolds : passage.nanos.toNat = nanos := passed.nanos
      have stands : (List.drop passage.place _) = behind := passed.rest
      subst nanosHolds
      refine .after (stretch_eq ⟨passed.inside, Nat.le_refl _⟩) ?_
      rw [List.take_length]
      subst stands
      refine (follows_readZone _).bind fun offset _ zoneRead same => ?_
      subst same
      have fourDigits : year.toNat < 2 ^ 31 :=
        Nat.lt_trans (readNumber_lt yearRead) (by simp)
      exact .after (signed_eq fourDigits)
        (follows_localInstant _ inRange (readFraction_lt fractionRead) (readZone_lt zoneRead))

/-- No text leads to a breach: every place and every stretch is inside of the text, the words hold
each number, a fraction makes less than a second and is filled up with one to eight zeros, the loop
over its digits ends, and the calendar is asked for times of day and for offsets of less than a day
only. So a text is read by positions as the layout reads it, and refused for the same reason.
-/
theorem readLayout_without_breach (bytes : List UInt8)
    : (∀ breach, readLayout bytes ≠ .error (.breach breach))
      ∧ readLayout bytes = (Calendar.readLayout bytes).mapError .refused := by
  have same := (follows_readLayout bytes).eq_mapError
  refine ⟨fun breach failed => ?_, same⟩
  rw [same] at failed
  cases read : Calendar.readLayout bytes with
  | ok instant => simp [read, Except.mapError] at failed
  | error cause => simp [read, Except.mapError] at failed

end Guarded

end LogIntake.Calendar
