import LogIntake.Proofs.Formatter.Stages
import LogIntake.Proofs.Json.Encoding
import LogIntake.Proofs.Unicode.Ranges

/-! The line of a record. It is the text payload of the entry, or the entry as it was received. The
latter loses nothing: an entry that decodes is a JSON document, a document that is read is the bytes
of a text, and reading these bytes gives that text back.
-/

namespace LogIntake

-----------------------------------------------------------------------------------------
-- White space
-----------------------------------------------------------------------------------------

/-- The characters that are white space by the Unicode standard. -/
def IsWhiteSpace (c : Char) : Prop :=
  0x9 ≤ c.toNat ∧ c.toNat ≤ 0xD
  ∨ 0x2000 ≤ c.toNat ∧ c.toNat ≤ 0x200A
  ∨ c.toNat ∈ [0x20, 0x85, 0xA0, 0x1680, 0x2028, 0x2029, 0x202F, 0x205F, 0x3000]

theorem whiteSpace_contains_iff {c : Char}
    : Unicode.Property.whiteSpace.contains c.toNat = true ↔ IsWhiteSpace c := by
  have table
      : Unicode.Property.whiteSpace
        = [⟨0x9, 0xD⟩, ⟨0x20, 0x20⟩, ⟨0x85, 0x85⟩, ⟨0xA0, 0xA0⟩, ⟨0x1680, 0x1680⟩,
           ⟨0x2000, 0x200A⟩, ⟨0x2028, 0x2029⟩, ⟨0x202F, 0x202F⟩, ⟨0x205F, 0x205F⟩,
           ⟨0x3000, 0x3000⟩] := by
    decide +kernel
  simp only [table, Unicode.CodeRanges.contains_cons_iff, Unicode.CodeRanges.contains_nil,
    IsWhiteSpace, List.mem_cons, List.not_mem_nil, or_false, Bool.false_eq_true]
  omega

/-- A text is blank exactly if it has no character besides white space. -/
theorem Entry.isBlankText_eq_false_iff {text : String}
    : isBlankText text = false ↔ ∃ c ∈ text.toList, ¬IsWhiteSpace c := by
  simp only [isBlankText, List.all_eq_false, whiteSpace_contains_iff]

-----------------------------------------------------------------------------------------
-- The line
-----------------------------------------------------------------------------------------

/-- What the line of a record says about the bytes of the entry that it comes from: these have no
broken part, and the line is the text payload if that is not blank and full lines are not wanted, or
else the text whose bytes they are.
-/
structure Record.TellsLine (record : Record) (full : Bool) (raw : List UInt8) (entry : Entry)
    : Prop where
  decoded : Entry.decode raw = .ok entry
  unbroken : none ∉ Text.Utf8.parts raw
  wellFormed : Text.Utf8.encode (Text.Utf8.decodeLossy raw) = raw
  payload
    : full = false ∧ (∃ c ∈ entry.textPayload.toList, ¬IsWhiteSpace c)
      → record.line = entry.textPayload
  received
    : ¬(full = false ∧ ∃ c ∈ entry.textPayload.toList, ¬IsWhiteSpace c)
      → Text.Utf8.encode record.line = raw

/-- An entry that decodes is the bytes of a text. -/
theorem Entry.isText_of_decode {raw : List UInt8} {entry : Entry}
    (decoded : Entry.decode raw = .ok entry)
    : Text.Utf8.IsText raw := by
  obtain ⟨value, parsed, _⟩ := bind_eq_ok_iff.mp decoded
  exact Json.isText_of_parse (mapError_eq_ok_iff.mp parsed)

theorem Entry.recordLine_eq {entry : Entry} {text : String} {full : Bool}
    : entry.recordLine (Text.Utf8.encode text) full
      = if full = false ∧ isBlankText entry.textPayload = false then entry.textPayload
        else text := by
  unfold recordLine
  simp only [Text.Utf8.decodeLossy_encode, Bool.and_eq_true, Bool.not_eq_true']

namespace Formatter

variable {formatter : Formatter} {now : Calendar.Instant} {record : Record}

/-- The line of a record over base labels tells the payload or the bytes of its entry. -/
theorem tellsLine_of_formatWithBase {raw : List UInt8} {base : LabelSet}
    (formatted : formatter.formatWithBase now raw base = .ok (some record))
    : ∃ entry, record.TellsLine formatter.useFullLine raw entry := by
  obtain ⟨entry, _, _, decoded, _, _, rfl⟩ := formatWithBase_eq_some_iff.mp formatted
  obtain ⟨text, rfl⟩ := Entry.isText_of_decode decoded
  refine ⟨entry, decoded, ?_, by rw [Text.Utf8.decodeLossy_encode], ?_, ?_⟩
  · rw [Text.Utf8.parts_encode]
    simp
  · rw [← Entry.isBlankText_eq_false_iff]
    intro shown
    exact Entry.recordLine_eq.trans (if_pos shown)
  · rw [← Entry.isBlankText_eq_false_iff]
    intro hidden
    exact congrArg Text.Utf8.encode (Entry.recordLine_eq.trans (if_neg hidden))

/-- Whether a record comes from the bytes of an entry or from the data of a push request, its line
is the payload of the entry unchanged, or the text whose bytes the entry is.
-/
theorem line_lossless (formatter : Formatter) (now : Calendar.Instant) (record : Record)
    : (∀ raw base,
        formatter.formatWithBase now raw base = .ok (some record)
        → ∃ entry, record.TellsLine formatter.useFullLine raw entry)
      ∧ ∀ body,
          formatter.formatPush now body = .ok (some record)
          → ∃ push raw entry,
              PushMessage.decode body = .ok push
              ∧ push.payload = .ok raw
              ∧ record.TellsLine formatter.useFullLine raw entry := by
  refine ⟨fun raw base => tellsLine_of_formatWithBase, fun body formatted => ?_⟩
  obtain ⟨push, raw, opened, carried, based⟩ := formatPush_eq_some_iff.mp formatted
  obtain ⟨entry, line⟩ := tellsLine_of_formatWithBase based
  exact ⟨push, raw, entry, opened, carried, line⟩

/-- An entry with a blank payload and text behind ASCII in a field that is ignored is its own line,
and an entry that a push request delivers has its payload for a line.
-/
theorem line_lossless_accents
    : let ignored := "\x7b\"textPayload\":\" \",\"jsonPayload\":\"é \\u00e9\"\x7d"
      let request :=
        "\x7b\"message\":\x7b\"data\":\"eyJ0ZXh0UGF5bG9hZCI6IsOpIn0=\",\"message_id\":\"7\"\x7d\x7d"
      ∃ record pushed entry push raw delivered,
        Formatter.default.format zeroInstant (Text.Utf8.encode ignored) = .ok (some record)
        ∧ record.line = ignored
        ∧ record.TellsLine false (Text.Utf8.encode ignored) entry
        ∧ Formatter.default.formatPush zeroInstant (Text.Utf8.encode request) = .ok (some pushed)
        ∧ pushed.line = "é"
        ∧ PushMessage.decode (Text.Utf8.encode request) = .ok push
        ∧ push.payload = .ok raw
        ∧ pushed.TellsLine false raw delivered := by
  intro ignored request
  let record : Record := ⟨.empty, zeroInstant, ignored⟩
  let pushed : Record := ⟨.empty, zeroInstant, "é"⟩
  have formatted
      : Formatter.default.format zeroInstant (Text.Utf8.encode ignored) = .ok (some record) := by
    decide +kernel
  have delivered
      : Formatter.default.formatPush zeroInstant (Text.Utf8.encode request)
        = .ok (some pushed) := by
    decide +kernel
  obtain ⟨entry, line⟩ := (line_lossless .default zeroInstant record).1 _ _ formatted
  obtain ⟨push, raw, inner, opened, carried, payload⟩ :=
    (line_lossless .default zeroInstant pushed).2 _ delivered
  exact ⟨record, pushed, entry, push, raw, inner, formatted, rfl, line, delivered, rfl, opened,
    carried, payload⟩

end Formatter

end LogIntake
