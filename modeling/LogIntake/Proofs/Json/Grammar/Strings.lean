import LogIntake.Proofs.Json.PrintedText
import LogIntake.Proofs.Json.Taking
import LogIntake.Proofs.Text.WellFormed
import Mathlib.Data.List.TakeWhile

/-! The grammar of blanks and strings, apart from the readers. A string is passed if it has the form
of one, and it is read exactly if its escapes stand for characters and the whole denotes a text.
-/

namespace LogIntake.Json

-----------------------------------------------------------------------------------------
-- Blanks
-----------------------------------------------------------------------------------------

theorem isBlank_iff {byte : UInt8}
    : isBlank byte = true ↔ byte = 0x20 ∨ byte = 0x0A ∨ byte = 0x09 ∨ byte = 0x0D := by
  simp only [isBlank, Bool.or_eq_true, decide_eq_true_eq, or_assoc]

def IsBlanks (bytes : List UInt8) : Prop :=
  ∀ byte ∈ bytes, isBlank byte = true

theorem IsBlanks.skipBlanks_append {blanks : List UInt8} (blank : IsBlanks blanks)
    (bytes : List UInt8)
    : skipBlanks (blanks ++ bytes) = skipBlanks bytes :=
  List.dropWhile_append_of_pos blank

theorem isBlanks_takeWhile (bytes : List UInt8) : IsBlanks (bytes.takeWhile isBlank) :=
  List.all_eq_true.mp List.all_takeWhile

/-- Blanks are passed up to a byte that is none. -/
theorem skipBlanks_eq_cons_iff {bytes rest : List UInt8} {byte : UInt8}
    (solid : isBlank byte = false)
    : skipBlanks bytes = byte :: rest
      ↔ ∃ blanks, IsBlanks blanks ∧ bytes = blanks ++ byte :: rest := by
  constructor
  · intro skipped
    refine ⟨_, isBlanks_takeWhile bytes, ?_⟩
    rw [← skipped]
    exact List.takeWhile_append_dropWhile.symm
  · intro written
    obtain ⟨blanks, blank, rfl⟩ := written
    rw [blank.skipBlanks_append, skipBlanks_cons solid]

theorem isEmpty_skipBlanks_iff {bytes : List UInt8}
    : (skipBlanks bytes).isEmpty = true ↔ IsBlanks bytes := by
  rw [List.isEmpty_iff, skipBlanks, List.dropWhile_eq_nil_iff]
  rfl

-----------------------------------------------------------------------------------------
-- Strings
-----------------------------------------------------------------------------------------

/-- An escape behind its backslash. -/
inductive IsEscape : List UInt8 → Prop
  | simple {byte value} (stands : simpleEscape? byte = some value) : IsEscape [byte]
  | unicode {a b c d unit} (quad : hexQuad? a b c d = some unit) : IsEscape [0x75, a, b, c, d]

/-- A byte that stands for itself between quotes. -/
structure IsPlain (byte : UInt8) : Prop where
  visible : 0x20 ≤ byte
  noQuote : byte ≠ 0x22
  noBackslash : byte ≠ 0x5C

/-- What stands between the quotes of a string. -/
inductive IsQuoted : List UInt8 → Prop
  | nil : IsQuoted []
  | plain {byte rest} (plain : IsPlain byte) (behind : IsQuoted rest) : IsQuoted (byte :: rest)
  | escape {code rest} (escape : IsEscape code) (behind : IsQuoted rest)
    : IsQuoted (0x5C :: (code ++ rest))

/-- An escape behind its backslash, with the bytes of the character that it stands for. Half of a
surrogate pair stands for none.
-/
inductive EscapeDenotes : List UInt8 → List UInt8 → Prop
  | simple {byte value} (stands : simpleEscape? byte = some value) : EscapeDenotes [byte] [value]
  | unit {a b c d unit} (quad : hexQuad? a b c d = some unit)
    (noLow : isLowSurrogate unit = false) (noHigh : isHighSurrogate unit = false)
    : EscapeDenotes [0x75, a, b, c, d] (bytesOfCode unit)
  | pair {a b c d e f g h high low} (quad : hexQuad? a b c d = some high)
    (isHigh : isHighSurrogate high = true) (next : hexQuad? e f g h = some low)
    (isLow : isLowSurrogate low = true)
    : EscapeDenotes [0x75, a, b, c, d, 0x5C, 0x75, e, f, g, h] (bytesOfCode (pairCode high low))

/-- What stands between the quotes of a string, with the bytes of its characters. -/
inductive QuotedDenotes : List UInt8 → List UInt8 → Prop
  | nil : QuotedDenotes [] []
  | plain {byte written content} (plain : IsPlain byte) (behind : QuotedDenotes written content)
    : QuotedDenotes (byte :: written) (byte :: content)
  | escape {code value written content} (escape : EscapeDenotes code value)
    (behind : QuotedDenotes written content)
    : QuotedDenotes (0x5C :: (code ++ written)) (value ++ content)

theorem readHexQuad_eq_ok_iff {bytes rest : List UInt8} {unit : Nat}
    : readHexQuad bytes = .ok (unit, rest)
      ↔ ∃ a b c d, hexQuad? a b c d = some unit ∧ bytes = a :: b :: c :: d :: rest := by
  constructor
  · intro done
    unfold readHexQuad at done
    split at done
    case h_1 a b c d after =>
      split at done
      case h_1 value quad =>
        cases done
        exact ⟨a, b, c, d, quad, rfl⟩
      case h_2 => cases done
    case h_2 => cases done
  · intro written
    obtain ⟨a, b, c, d, quad, rfl⟩ := written
    simp only [readHexQuad, quad]

theorem skipEscape_simple {byte : UInt8} (notUnicode : byte ≠ 0x75) (bytes : List UInt8)
    : skipEscape (byte :: bytes)
      = if (simpleEscape? byte).isSome then .ok bytes else .error .invalidEscape := by
  simp only [skipEscape]

/-- No escape by one letter has the letter of the escapes by number. -/
theorem ne_of_simpleEscape? {byte value : UInt8} (stands : simpleEscape? byte = some value)
    : byte ≠ 0x75 := by
  intro equal
  subst equal
  cases stands

theorem skipEscape_eq_ok_iff {bytes rest : List UInt8}
    : skipEscape bytes = .ok rest ↔ ∃ code, IsEscape code ∧ bytes = code ++ rest := by
  constructor
  · intro done
    unfold skipEscape at done
    split at done
    case h_1 => cases done
    case h_2 after =>
      obtain ⟨⟨unit, behind⟩, quadRead, returned⟩ := bind_eq_ok_iff.mp done
      cases returned
      obtain ⟨a, b, c, d, quad, rfl⟩ := readHexQuad_eq_ok_iff.mp quadRead
      exact ⟨_, .unicode quad, rfl⟩
    case h_3 byte after notUnicode =>
      split at done
      case isTrue known =>
        cases done
        obtain ⟨value, stands⟩ := Option.isSome_iff_exists.mp known
        exact ⟨_, .simple stands, rfl⟩
      case isFalse => cases done
  · intro written
    obtain ⟨code, escape, rfl⟩ := written
    cases escape with
    | simple stands =>
        rw [List.singleton_append, skipEscape_simple (ne_of_simpleEscape? stands), stands]
        rfl
    | unicode quad =>
        exact bind_eq_ok_iff.mpr
          ⟨(_, rest), readHexQuad_eq_ok_iff.mpr ⟨_, _, _, _, quad, rfl⟩, rfl⟩

/-- The bytes of a string are passed up to its quote, by induction on the bound of the passing. -/
theorem exists_quoted_of_skipStringBytes {bound : Nat} {bytes rest : List UInt8}
    (done : skipStringBytes bound bytes = .ok rest)
    : ∃ text, IsQuoted text ∧ bytes = text ++ 0x22 :: rest := by
  induction bound generalizing bytes with
  | zero => cases done
  | succ bound ih =>
      cases bytes with
      | nil => cases done
      | cons byte after =>
          rw [skipStringBytes] at done
          split at done
          case isTrue quote =>
            cases done
            exact ⟨[], .nil, by rw [quote]; rfl⟩
          case isFalse noQuote =>
            split at done
            case isTrue backslash =>
              split at done
              case h_1 behind escaped =>
                obtain ⟨code, escape, rfl⟩ := skipEscape_eq_ok_iff.mp escaped
                obtain ⟨text, quoted, rfl⟩ := ih done
                exact ⟨0x5C :: (code ++ text), .escape escape quoted, by simp [backslash]⟩
              case h_2 => cases done
            case isFalse noBackslash =>
              split at done
              case isTrue => cases done
              case isFalse visible =>
                obtain ⟨text, quoted, rfl⟩ := ih done
                exact ⟨byte :: text,
                  .plain ⟨UInt8.not_lt.mp visible, noQuote, noBackslash⟩ quoted, rfl⟩

/-- By induction on the text. -/
theorem IsQuoted.skipStringBytes {text : List UInt8} (quoted : IsQuoted text) {bound : Nat}
    (enough : text.length < bound) (rest : List UInt8)
    : skipStringBytes bound (text ++ 0x22 :: rest) = .ok rest := by
  induction quoted generalizing bound with
  | nil =>
      obtain ⟨bound, rfl⟩ := Nat.exists_eq_add_one.mpr enough
      rfl
  | plain plain _ ih =>
      obtain ⟨bound, rfl⟩ := Nat.exists_eq_add_one.mpr (Nat.zero_lt_of_lt enough)
      rw [List.cons_append, Json.skipStringBytes, if_neg plain.noQuote, if_neg plain.noBackslash,
        if_neg (UInt8.not_lt.mpr plain.visible)]
      exact ih (Nat.lt_of_succ_lt_succ enough)
  | @escape code behind escape _ ih =>
      obtain ⟨bound, rfl⟩ := Nat.exists_eq_add_one.mpr (Nat.zero_lt_of_lt enough)
      have passed : skipEscape (code ++ (behind ++ 0x22 :: rest)) = .ok (behind ++ 0x22 :: rest) :=
        skipEscape_eq_ok_iff.mpr ⟨code, escape, rfl⟩
      simp only [List.length_cons, List.length_append] at enough
      rw [List.cons_append, List.append_assoc, skipStringBytes_escape, passed]
      exact ih (by omega)

/-- A string is passed up to its closing quote. -/
theorem skipString_eq_ok_iff {bytes rest : List UInt8}
    : skipString bytes = .ok rest ↔ ∃ text, IsQuoted text ∧ bytes = text ++ 0x22 :: rest := by
  constructor
  · exact exists_quoted_of_skipStringBytes
  · intro written
    obtain ⟨text, quoted, rfl⟩ := written
    refine quoted.skipStringBytes ?_ rest
    rw [List.length_append]
    omega

theorem readLowSurrogate_eq_ok_iff {high : Nat} {bytes value rest : List UInt8}
    : readLowSurrogate high bytes = .ok (value, rest)
      ↔ ∃ a b c d low,
          hexQuad? a b c d = some low
          ∧ isLowSurrogate low = true
          ∧ value = bytesOfCode (pairCode high low)
          ∧ bytes = 0x5C :: 0x75 :: a :: b :: c :: d :: rest := by
  constructor
  · intro done
    unfold readLowSurrogate at done
    split at done
    case h_3 after =>
      obtain ⟨⟨low, behind⟩, quadRead, chosen⟩ := bind_eq_ok_iff.mp done
      obtain ⟨a, b, c, d, quad, rfl⟩ := readHexQuad_eq_ok_iff.mp quadRead
      dsimp only at chosen
      split at chosen
      case isTrue isLow =>
        obtain ⟨rfl, rfl⟩ := Prod.mk.inj (Except.ok.inj chosen)
        exact ⟨a, b, c, d, low, quad, isLow, rfl, rfl⟩
      case isFalse => cases chosen
    all_goals cases done
  · intro written
    obtain ⟨a, b, c, d, low, quad, isLow, stands, rfl⟩ := written
    rw [stands]
    have quadRead : readHexQuad (a :: b :: c :: d :: rest) = .ok (low, rest) :=
      readHexQuad_eq_ok_iff.mpr ⟨a, b, c, d, quad, rfl⟩
    rw [readLowSurrogate_pair]
    exact bind_eq_ok_iff.mpr ⟨(low, rest), quadRead, if_pos isLow⟩

/-- An escape that stands for a character is read as it. -/
theorem readEscape_eq_ok_iff {bytes value rest : List UInt8}
    : readEscape bytes = .ok (value, rest)
      ↔ ∃ code, EscapeDenotes code value ∧ bytes = code ++ rest := by
  constructor
  · intro done
    unfold readEscape at done
    split at done
    case h_1 => cases done
    case h_2 after =>
      obtain ⟨⟨unit, behind⟩, quadRead, chosen⟩ := bind_eq_ok_iff.mp done
      obtain ⟨a, b, c, d, quad, rfl⟩ := readHexQuad_eq_ok_iff.mp quadRead
      dsimp only at chosen
      split at chosen
      case isTrue => cases chosen
      case isFalse noLow =>
        split at chosen
        case isTrue isHigh =>
          obtain ⟨e, f, g, h, low, next, isLow, stands, rfl⟩ :=
            readLowSurrogate_eq_ok_iff.mp chosen
          rw [stands]
          exact ⟨_, .pair quad isHigh next isLow, rfl⟩
        case isFalse noHigh =>
          cases chosen
          exact ⟨_, .unit quad (Bool.eq_false_iff.mpr noLow) (Bool.eq_false_iff.mpr noHigh), rfl⟩
    case h_3 byte after notUnicode =>
      split at done
      case h_1 stands simple =>
        cases done
        exact ⟨_, .simple simple, rfl⟩
      case h_2 => cases done
  · intro written
    obtain ⟨code, escape, rfl⟩ := written
    cases escape with
    | simple stands =>
        rw [List.singleton_append, readEscape_simple (ne_of_simpleEscape? stands), stands]
    | @unit a b c d unit quad noLow noHigh =>
        have quadRead : readHexQuad (a :: b :: c :: d :: rest) = .ok (unit, rest) :=
          readHexQuad_eq_ok_iff.mpr ⟨a, b, c, d, quad, rfl⟩
        refine (readEscape_unicode _).trans (bind_eq_ok_iff.mpr ⟨(unit, rest), quadRead, ?_⟩)
        simp only [noLow, noHigh, Bool.false_eq_true, if_false]
    | @pair a b c d e f g h high low quad isHigh next isLow =>
        have noLow : isLowSurrogate high = false := by
          simp only [isHighSurrogate, isLowSurrogate, Bool.and_eq_true, Bool.and_eq_false_iff,
            decide_eq_true_eq, decide_eq_false_iff_not] at isHigh ⊢
          omega
        let behind := 0x5C :: 0x75 :: e :: f :: g :: h :: rest
        have quadRead : readHexQuad (a :: b :: c :: d :: behind) = .ok (high, behind) :=
          readHexQuad_eq_ok_iff.mpr ⟨a, b, c, d, quad, rfl⟩
        refine (readEscape_unicode _).trans (bind_eq_ok_iff.mpr ⟨(high, behind), quadRead, ?_⟩)
        simp only [noLow, isHigh, Bool.false_eq_true, if_false, if_true]
        exact readLowSurrogate_eq_ok_iff.mpr ⟨e, f, g, h, low, next, isLow, rfl, rfl⟩

/-- The bytes of a string are read up to its quote, by induction on the bound of the reading. -/
theorem exists_denotes_of_readStringBytes {bound : Nat} {before bytes content rest : List UInt8}
    (done : readStringBytes bound before bytes = .ok (content, rest))
    : ∃ written value,
        QuotedDenotes written value
        ∧ bytes = written ++ 0x22 :: rest
        ∧ content = before.reverse ++ value := by
  induction bound generalizing before bytes with
  | zero => cases done
  | succ bound ih =>
      cases bytes with
      | nil => cases done
      | cons byte after =>
          rw [readStringBytes] at done
          split at done
          case isTrue quote =>
            cases done
            exact ⟨[], [], .nil, by rw [quote]; rfl, by simp⟩
          case isFalse noQuote =>
            split at done
            case isTrue backslash =>
              split at done
              case h_1 value behind escaped =>
                obtain ⟨code, escape, rfl⟩ := readEscape_eq_ok_iff.mp escaped
                obtain ⟨written, further, denotes, rfl, rfl⟩ := ih done
                exact ⟨_, _, .escape escape denotes, by simp [backslash], by simp⟩
              case h_2 => cases done
            case isFalse noBackslash =>
              split at done
              case isTrue => cases done
              case isFalse visible =>
                obtain ⟨written, further, denotes, rfl, rfl⟩ := ih done
                exact ⟨_, _,
                  .plain ⟨UInt8.not_lt.mp visible, noQuote, noBackslash⟩ denotes, rfl, by simp⟩

/-- By induction on what is written. -/
theorem QuotedDenotes.passes {written content : List UInt8}
    (denotes : QuotedDenotes written content)
    : Passes written content := by
  induction denotes with
  | nil => exact .nil
  | @plain byte _ _ plain _ ih =>
      have single : Passes [byte] [byte] := by
        refine .plain fun other member => ?_
        obtain rfl := List.mem_singleton.mp member
        exact ⟨plain.visible, plain.noQuote, plain.noBackslash⟩
      exact single.append ih
  | escape escape _ ih =>
      have passes := Passes.escape fun rest => readEscape_eq_ok_iff.mpr ⟨_, escape, rfl⟩
      exact passes.append ih

/-- A string in front of its closing quote is written so that it denotes a text. -/
def WritesName (written : List UInt8) (name : String) : Prop :=
  QuotedDenotes written (Text.Utf8.encode name)

/-- A string is read as the text that it denotes. -/
theorem readString_eq_ok_iff_writesName {bytes rest : List UInt8} {name : String}
    : readString bytes = .ok (name, rest)
      ↔ ∃ written, WritesName written name ∧ bytes = written ++ 0x22 :: rest := by
  rw [readString_eq_ok_iff]
  constructor
  · intro written
    obtain ⟨content, contentRead, decoded⟩ := written
    obtain ⟨written, value, denotes, rfl, rfl⟩ := exists_denotes_of_readStringBytes contentRead
    have own := Text.Utf8.decode?_eq_some_iff.mp decoded
    rw [own] at denotes
    exact ⟨written, denotes, rfl⟩
  · intro formed
    obtain ⟨written, denotes, rfl⟩ := formed
    refine ⟨_, denotes.passes.readStringBytes_quote rest, ?_⟩
    exact Text.Utf8.decode?_eq_some_iff.mpr rfl

end LogIntake.Json
