import LogIntake.Formatter
import LogIntake.Proofs.Calendar.WrittenTime

/-! The instant that an entry states. Its text is read as a written timestamp and nothing else is,
and the instant that stands for no timestamp is recognised in whatever way it is written.
-/

namespace LogIntake

/-- A text is a written timestamp that denotes an instant. -/
def Calendar.States (text : String) (instant : Instant) : Prop :=
  ∃ stamp : Stamp, text.toList = stamp.chars ∧ stamp.Denotes instant

/-- A text is read as the instant that it states. -/
theorem Calendar.readLayout_encode_iff {text : String} {instant : Instant}
    : readLayout (Text.Utf8.encode text) = .ok instant ↔ States text instant := by
  have own {stamp : Stamp}
      : Text.Utf8.encode text = Text.Utf8.encodeChars stamp.chars ↔ text.toList = stamp.chars :=
    Text.Utf8.encodeChars_inj
  simp only [readLayout_eq_ok_iff, own, States]

/-- A text is read exactly if it is a written timestamp. -/
theorem Calendar.exists_readLayout_encode_iff {text : String}
    : (∃ instant, readLayout (Text.Utf8.encode text) = .ok instant)
      ↔ ∃ stamp : Stamp, text.toList = stamp.chars := by
  simp only [readLayout_encode_iff, States, Stamp.denotes_iff]
  constructor
  · rintro ⟨_, stamp, written, _⟩
    exact ⟨stamp, written⟩
  · rintro ⟨stamp, written⟩
    exact ⟨stamp.instant, stamp, written, rfl⟩

namespace Entry

/-- What an entry comes to, given the text that its instant is read from. -/
inductive Statement (text : String) : Except FormatError Calendar.Instant → Prop
  | absent (empty : text = "") : Statement text (.error .missingTimestamp)
  | unread {cause} (present : text ≠ "")
    (read : Calendar.readLayout (Text.Utf8.encode text) = .error cause)
    : Statement text (.error (.timestampParse text cause))
  | zero (read : Calendar.readLayout (Text.Utf8.encode text) = .ok zeroInstant)
    : Statement text (.error .missingTimestamp)
  | stated {instant} (read : Calendar.readLayout (Text.Utf8.encode text) = .ok instant)
    (nonzero : instant ≠ zeroInstant)
    : Statement text (.ok instant)

/-- Every entry comes to what its text states, by the cases of reading it. -/
theorem statement (entry : Entry) : Statement entry.timestampText entry.statedInstant := by
  unfold statedInstant
  dsimp only
  split
  case isTrue empty => exact .absent (String.isEmpty_iff.mp empty)
  case isFalse present =>
    split
    case h_1 cause read => exact .unread (fun empty => present (String.isEmpty_iff.mpr empty)) read
    case h_2 instant read =>
      split
      case isTrue zero => exact .zero (zero ▸ read)
      case isFalse nonzero => exact .stated read nonzero

theorem timestampText_eq (entry : Entry)
    : entry.timestampText
      = if entry.timestamp = "" then entry.receiveTimestamp else entry.timestamp := by
  simp only [timestampText, String.isEmpty_iff]

namespace Statement

variable {text : String} {outcome : Except FormatError Calendar.Instant}

theorem ne_empty_of_read {instant : Calendar.Instant}
    (read : Calendar.readLayout (Text.Utf8.encode text) = .ok instant)
    : text ≠ "" := by
  rintro rfl
  cases read

theorem eq_missing_iff (statement : Statement text outcome)
    : outcome = .error .missingTimestamp
      ↔ text = "" ∨ Calendar.readLayout (Text.Utf8.encode text) = .ok zeroInstant := by
  cases statement with
  | absent empty => simp [empty]
  | unread present read => simp [present, read]
  | zero read => simp [read]
  | stated read nonzero => simp [ne_empty_of_read read, read, nonzero]

theorem exists_eq_parse_iff (statement : Statement text outcome) {carried : String}
    : (∃ cause, outcome = .error (.timestampParse carried cause))
      ↔ carried = text
        ∧ text ≠ ""
        ∧ ¬∃ instant, Calendar.readLayout (Text.Utf8.encode text) = .ok instant := by
  cases statement with
  | absent empty => simp [empty]
  | unread present read => simp [present, read, eq_comm]
  | zero read => simp [read]
  | stated read nonzero => simp [read]

theorem eq_ok_iff (statement : Statement text outcome) {instant : Calendar.Instant}
    : outcome = .ok instant
      ↔ Calendar.readLayout (Text.Utf8.encode text) = .ok instant ∧ instant ≠ zeroInstant := by
  cases statement with
  | absent empty =>
      subst empty
      exact ⟨nofun, fun stated => nomatch stated.1⟩
  | unread present read => simp [read]
  | zero read => simp [read, eq_comm]
  | stated read nonzero =>
      simp only [read, Except.ok.injEq]
      exact ⟨fun same => ⟨same, same ▸ nonzero⟩, And.left⟩

end Statement

/-- If the instants of entries are adopted, the text for the instant is the timestamp, or the time
of receipt if that is empty. It is read exactly if it is a written timestamp, and then as the instant
that this denotes. There is no timestamp if the text is empty or denotes the first instant of the
year one; a text that is not read is the one that the error carries; and any other text gives exactly
its instant.
-/
theorem instant_exact (entry : Entry) (now : Calendar.Instant)
    : let text := if entry.timestamp = "" then entry.receiveTimestamp else entry.timestamp
      ((∃ instant, Calendar.readLayout (Text.Utf8.encode text) = .ok instant)
          ↔ ∃ stamp : Calendar.Stamp, text.toList = stamp.chars)
      ∧ (∀ instant,
          Calendar.readLayout (Text.Utf8.encode text) = .ok instant
          ↔ Calendar.States text instant)
      ∧ (entry.instant true now = .error .missingTimestamp
          ↔ text = "" ∨ Calendar.States text ⟨-62135596800, 0⟩)
      ∧ (∀ carried,
          (∃ cause, entry.instant true now = .error (.timestampParse carried cause))
          ↔ carried = text ∧ text ≠ "" ∧ ¬∃ stamp : Calendar.Stamp, text.toList = stamp.chars)
      ∧ ∀ instant,
          entry.instant true now = .ok instant
          ↔ Calendar.States text instant ∧ instant ≠ ⟨-62135596800, 0⟩ := by
  rw [← timestampText_eq]
  intro text
  have outcome : Statement text (entry.instant true now) := entry.statement
  refine ⟨Calendar.exists_readLayout_encode_iff, fun _ => Calendar.readLayout_encode_iff, ?missing,
    fun carried => ?unread, fun instant => ?stated⟩
  case missing => exact outcome.eq_missing_iff.trans (or_congr_right Calendar.readLayout_encode_iff)
  case unread =>
    rw [outcome.exists_eq_parse_iff, Calendar.exists_readLayout_encode_iff]
  case stated => exact outcome.eq_ok_iff.trans (and_congr_left' Calendar.readLayout_encode_iff)

/-- The first instant of the year one stands for none in the last hour of the year before, too, and
with a tenth digit behind nine zeros.
-/
example
    : { empty with receiveTimestamp := "0000-12-31T23:00:00,0000000009-01:00" }.instant true .epoch
      = .error .missingTimestamp := by
  decide +kernel

end Entry

end LogIntake
