import LogIntake.Proofs.Json.Taking
import LogIntake.Proofs.Text.WellFormed
import Mathlib.Data.List.TakeWhile

/-! The encoding of documents. Outside of its strings a document has ASCII characters only. The
content of a string is checked after its escapes have been replaced, and as each of them stands for
a whole character, the string is the bytes of a text as it was written, too.
-/

namespace LogIntake.Json

open Text.Utf8

/-- The bytes are those of a text up to the rest. -/
def TextUpTo (bytes rest : List UInt8) : Prop :=
  ∃ taken, IsText taken ∧ bytes = taken ++ rest

namespace TextUpTo

variable {bytes middle rest : List UInt8} {byte : UInt8}

theorem refl (bytes : List UInt8) : TextUpTo bytes bytes :=
  ⟨[], isText_nil, rfl⟩

theorem trans (front : TextUpTo bytes middle) (back : TextUpTo middle rest)
    : TextUpTo bytes rest := by
  obtain ⟨taken, text, rfl⟩ := front
  obtain ⟨others, more, rfl⟩ := back
  exact ⟨taken ++ others, text.append more, by simp⟩

theorem of_ascii {taken : List UInt8} (ascii : ∀ byte ∈ taken, byte < 0x80)
    : TextUpTo (taken ++ rest) rest :=
  ⟨taken, isText_of_ascii ascii, rfl⟩

theorem cons (ascii : byte < 0x80) (behind : TextUpTo bytes rest) : TextUpTo (byte :: bytes) rest :=
  (of_ascii (List.forall_mem_singleton.mpr ascii)).trans behind

theorem dropWhile {passes : UInt8 → Bool} (ascii : ∀ byte, passes byte = true → byte < 0x80)
    (bytes : List UInt8)
    : TextUpTo bytes (bytes.dropWhile passes) :=
  ⟨bytes.takeWhile passes,
    isText_of_ascii fun byte member => ascii byte (List.mem_takeWhile_imp member),
    List.takeWhile_append_dropWhile.symm⟩

/-- Bytes whose rest is a text are a text. -/
theorem isText (front : TextUpTo bytes rest) (text : IsText rest) : IsText bytes := by
  obtain ⟨taken, before, rfl⟩ := front
  exact before.append text

end TextUpTo

-----------------------------------------------------------------------------------------
-- Blanks, words and numbers
-----------------------------------------------------------------------------------------

theorem ascii_of_isBlank (byte : UInt8) (blank : isBlank byte = true) : byte < 0x80 := by
  simp only [isBlank, Bool.or_eq_true, decide_eq_true_eq] at blank
  rcases blank with ((rfl | rfl) | rfl) | rfl <;> decide

theorem ascii_of_isDigit (byte : UInt8) (digit : isDigit byte = true) : byte < 0x80 := by
  simp only [isDigit, Bool.and_eq_true, decide_eq_true_eq] at digit
  exact UInt8.lt_of_le_of_lt digit.2 (by decide)

theorem textUpTo_skipBlanks (bytes : List UInt8) : TextUpTo bytes (skipBlanks bytes) :=
  .dropWhile ascii_of_isBlank bytes

theorem textUpTo_skipDigits (bytes : List UInt8) : TextUpTo bytes (bytes.dropWhile isDigit) :=
  .dropWhile ascii_of_isDigit bytes

variable {bytes rest : List UInt8}

theorem textUpTo_of_skipBlanks {byte : UInt8} (ascii : byte < 0x80)
    (skipped : skipBlanks bytes = byte :: rest)
    : TextUpTo bytes rest :=
  (textUpTo_skipBlanks bytes).trans (skipped ▸ .cons ascii (.refl rest))

theorem readWord_textUpTo {word : List Char} (ascii : word.all (byteOf · < 0x80) = true)
    (done : readWord word bytes = .ok rest)
    : TextUpTo bytes rest := by
  induction word generalizing bytes with
  | nil =>
      cases done
      exact .refl _
  | cons c word ih =>
      rw [List.all_cons, Bool.and_eq_true, decide_eq_true_eq] at ascii
      cases bytes with
      | nil => cases done
      | cons byte bytes =>
          rw [readWord] at done
          split at done
          case isTrue same => exact .cons (same ▸ ascii.1) (ih ascii.2 done)
          case isFalse => cases done

theorem readExponentDigits_textUpTo {value : Nat} {size : Option Nat}
    (done : readExponentDigits value bytes = (size, rest))
    : TextUpTo bytes rest := by
  induction bytes generalizing value with
  | nil =>
      cases done
      exact .refl _
  | cons byte bytes ih =>
      simp only [readExponentDigits] at done
      split at done
      case isTrue digit =>
        refine .cons (ascii_of_isDigit byte digit) ?_
        split at done
        case isTrue =>
          cases done
          exact textUpTo_skipDigits bytes
        case isFalse => exact ih done
      case isFalse =>
        cases done
        exact .refl _

theorem readExponent_textUpTo {negative : Bool} {digits : Nat} {exponent : Int} {x : Binary64}
    (done : readExponent negative digits exponent bytes = .ok (x, rest))
    : TextUpTo bytes rest := by
  unfold readExponent at done
  dsimp only at done
  split at done
  case h_1 => cases done
  case h_2 byte after unsigned =>
    have sign : TextUpTo bytes (byte :: after) := by
      rw [← unsigned]
      split
      case h_1 first behind =>
        split_ifs with plus minus
        · exact .cons (plus ▸ by decide) (.refl _)
        · exact .cons (minus ▸ by decide) (.refl _)
        · exact .refl _
      case h_2 => exact .refl _
    split at done
    case isFalse => cases done
    case isTrue digit =>
      refine sign.trans (.cons (ascii_of_isDigit byte digit) ?_)
      split at done
      case h_1 read =>
        obtain ⟨_, _, returned⟩ := bind_eq_ok_iff.mp done
        cases returned
        exact readExponentDigits_textUpTo read
      case h_2 read =>
        split_ifs at done
        cases done
        exact readExponentDigits_textUpTo read

theorem finishFraction_textUpTo {negative : Bool} {digits : Nat} {exponent : Int} {x : Binary64}
    (done : finishFraction negative digits exponent bytes = .ok (x, rest))
    : TextUpTo bytes rest := by
  unfold finishFraction at done
  split at done
  case h_1 byte after =>
    split at done
    case isTrue letter =>
      simp only [Bool.or_eq_true, decide_eq_true_eq] at letter
      refine .cons ?_ (readExponent_textUpTo done)
      rcases letter with rfl | rfl <;> decide
    case isFalse =>
      obtain ⟨_, _, returned⟩ := bind_eq_ok_iff.mp done
      cases returned
      exact .refl _
  case h_2 =>
    obtain ⟨_, _, returned⟩ := bind_eq_ok_iff.mp done
    cases returned
    exact .refl _

theorem readFractionDigits_textUpTo {digits count value taken : Nat}
    (done : readFractionDigits digits count bytes = (value, taken, rest))
    : TextUpTo bytes rest := by
  induction bytes generalizing digits count with
  | nil =>
      cases done
      exact .refl _
  | cons byte bytes ih =>
      simp only [readFractionDigits] at done
      split at done
      case isTrue digit =>
        refine .cons (ascii_of_isDigit byte digit) ?_
        split at done
        case isTrue =>
          cases done
          exact textUpTo_skipDigits bytes
        case isFalse => exact ih done
      case isFalse =>
        cases done
        exact .refl _

theorem readFraction_textUpTo {negative : Bool} {digits : Nat} {exponent : Int} {x : Binary64}
    (done : readFraction negative digits exponent bytes = .ok (x, rest))
    : TextUpTo bytes rest := by
  unfold readFraction at done
  split at done
  case h_1 => cases done
  case h_2 byte after =>
    split at done
    case isTrue => exact (readFractionDigits_textUpTo rfl).trans (finishFraction_textUpTo done)
    case isFalse => cases done

theorem readWholeDigits_textUpTo {digits value further : Nat}
    (done : readWholeDigits digits bytes = (value, further, rest))
    : TextUpTo bytes rest := by
  induction bytes generalizing digits with
  | nil =>
      cases done
      exact .refl _
  | cons byte bytes ih =>
      simp only [readWholeDigits] at done
      split at done
      case isTrue digit =>
        split at done
        case isTrue =>
          cases done
          have dropped
              : ((byte :: bytes).takeWhile isDigit ++ (byte :: bytes).dropWhile isDigit).drop
                  ((byte :: bytes).takeWhile isDigit).length
                = (byte :: bytes).dropWhile isDigit :=
            List.drop_left
          rw [List.takeWhile_append_dropWhile] at dropped
          rw [dropped]
          exact textUpTo_skipDigits (byte :: bytes)
        case isFalse => exact .cons (ascii_of_isDigit byte digit) (ih done)
      case isFalse =>
        cases done
        exact .refl _

theorem readAfterWhole_textUpTo {negative : Bool} {digits further : Nat} {n : Number}
    (done : readAfterWhole negative digits further bytes = .ok (n, rest))
    : TextUpTo bytes rest := by
  have fractional {result : Except FormError (Binary64 × List UInt8)}
      (ends : ∀ {x rest}, result = .ok (x, rest) → TextUpTo bytes rest)
      (done : (result >>= fun read => pure (.fraction read.1, read.2)) = .ok (n, rest))
      : TextUpTo bytes rest := by
    obtain ⟨⟨x, behind⟩, read, returned⟩ := bind_eq_ok_iff.mp done
    cases returned
    exact ends read
  unfold readAfterWhole at done
  split at done
  case h_1 byte after =>
    split at done
    case isTrue point =>
      refine fractional (fun read => ?_) done
      exact .cons (point ▸ by decide) (readFraction_textUpTo read)
    case isFalse =>
      split at done
      case isTrue => exact fractional finishFraction_textUpTo done
      case isFalse =>
        cases done
        exact .refl _
  case h_2 =>
    split at done
    case isTrue => exact fractional finishFraction_textUpTo done
    case isFalse =>
      cases done
      exact .refl _

theorem readUnsigned_textUpTo {negative : Bool} {n : Number}
    (done : readUnsigned negative bytes = .ok (n, rest))
    : TextUpTo bytes rest := by
  unfold readUnsigned at done
  split at done
  case h_1 => cases done
  case h_2 byte after =>
    split at done
    case isTrue zero =>
      refine .cons (zero ▸ by decide) ?_
      split at done
      case h_1 =>
        split at done
        case isTrue => cases done
        case isFalse => exact readAfterWhole_textUpTo done
      case h_2 => exact readAfterWhole_textUpTo done
    case isFalse =>
      split at done
      case isTrue => exact (readWholeDigits_textUpTo rfl).trans (readAfterWhole_textUpTo done)
      case isFalse => cases done

-----------------------------------------------------------------------------------------
-- Strings
-----------------------------------------------------------------------------------------

theorem ascii_of_hexDigit? {byte : UInt8} {digit : Nat} (known : hexDigit? byte = some digit)
    : byte < 0x80 := by
  simp only [hexDigit?, Bool.and_eq_true, decide_eq_true_eq] at known
  split_ifs at known with decimal lower upper
  · exact UInt8.lt_of_le_of_lt decimal.2 (by decide)
  · exact UInt8.lt_of_le_of_lt lower.2 (by decide)
  · exact UInt8.lt_of_le_of_lt upper.2 (by decide)

theorem readHexQuad_textUpTo {unit : Nat} (done : readHexQuad bytes = .ok (unit, rest))
    : TextUpTo bytes rest := by
  unfold readHexQuad at done
  split at done
  case h_1 a b c d after =>
    split at done
    case h_1 quad =>
      cases done
      obtain ⟨_, first, quad⟩ := Option.bind_eq_some_iff.mp quad
      obtain ⟨_, second, quad⟩ := Option.bind_eq_some_iff.mp quad
      obtain ⟨_, third, quad⟩ := Option.bind_eq_some_iff.mp quad
      obtain ⟨_, fourth, _⟩ := Option.bind_eq_some_iff.mp quad
      exact .cons (ascii_of_hexDigit? first) (.cons (ascii_of_hexDigit? second)
        (.cons (ascii_of_hexDigit? third) (.cons (ascii_of_hexDigit? fourth) (.refl _))))
    case h_2 => cases done
  case h_2 => cases done

/-- A one-letter escape is an ASCII letter and stands for an ASCII character. -/
theorem ascii_of_simpleEscape? {byte value : UInt8} (known : simpleEscape? byte = some value)
    : byte < 0x80 ∧ value < 0x80 := by
  simp only [simpleEscape?, Bool.or_eq_true, decide_eq_true_eq] at known
  split_ifs at known with self
  · cases known
    rcases self with (rfl | rfl) | rfl <;> decide
  all_goals
    cases known
    subst byte
    decide

/-- The second half of a surrogate pair completes a character. -/
theorem readLowSurrogate_textUpTo {high : Nat} {value : List UInt8}
    (done : readLowSurrogate high bytes = .ok (value, rest))
    : TextUpTo bytes rest ∧ ∃ c, value = String.utf8EncodeChar c := by
  unfold readLowSurrogate at done
  split at done
  case h_3 =>
    obtain ⟨⟨low, behind⟩, quad, chosen⟩ := bind_eq_ok_iff.mp done
    dsimp only at chosen
    split at chosen
    case isTrue =>
      obtain ⟨rfl, rfl⟩ := Prod.mk.inj (Except.ok.inj chosen)
      exact ⟨.cons (by decide) (.cons (by decide) (readHexQuad_textUpTo quad)), _, rfl⟩
    case isFalse => cases chosen
  all_goals cases done

/-- An escape is written in ASCII characters and stands for one character. -/
theorem readEscape_textUpTo {value : List UInt8} (done : readEscape bytes = .ok (value, rest))
    : TextUpTo bytes rest ∧ ∃ c, value = String.utf8EncodeChar c := by
  unfold readEscape at done
  split at done
  case h_1 => cases done
  case h_2 =>
    obtain ⟨⟨unit, behind⟩, quad, chosen⟩ := bind_eq_ok_iff.mp done
    have front := readHexQuad_textUpTo quad
    dsimp only at chosen
    split at chosen
    case isTrue => cases chosen
    case isFalse =>
      split at chosen
      case isTrue =>
        obtain ⟨back, char⟩ := readLowSurrogate_textUpTo chosen
        exact ⟨.cons (by decide) (front.trans back), char⟩
      case isFalse =>
        cases chosen
        exact ⟨.cons (by decide) front, _, rfl⟩
  case h_3 =>
    split at done
    case h_1 value simple =>
      cases done
      obtain ⟨ascii, stands⟩ := ascii_of_simpleEscape? simple
      exact ⟨.cons ascii (.refl _), charOf value.toNat, (utf8EncodeChar_one stands).symm⟩
    case h_2 => cases done

/-- What is written in a string is a text if what it stands for is one. The induction is on the
bound of the reading, and the bytes in front belong to the last character that is not complete yet.
-/
theorem readStringBytes_eq_ok_isText {bound : Nat} {before content : List UInt8}
    (done : readStringBytes bound before bytes = .ok (content, rest))
    : ∃ written stands,
        content = before.reverse ++ stands
        ∧ bytes = written ++ 0x22 :: rest
        ∧ ∀ front, IsText (front ++ stands) → IsText (front ++ written) := by
  induction bound generalizing before bytes with
  | zero => cases done
  | succ bound ih =>
      cases bytes with
      | nil => cases done
      | cons byte after =>
          rw [readStringBytes] at done
          split at done
          case isTrue quote =>
            cases done
            exact ⟨[], [], by simp, by simp [quote], fun _ => id⟩
          case isFalse =>
            split at done
            case isTrue backslash =>
              subst backslash
              split at done
              case h_1 value behind escaped =>
                obtain ⟨⟨escape, escapeText, rfl⟩, c, rfl⟩ := readEscape_textUpTo escaped
                obtain ⟨written, stands, rfl, rfl, keeps⟩ := ih done
                refine ⟨0x5C :: escape ++ written, String.utf8EncodeChar c ++ stands, by simp,
                  by simp, fun front text => ?_⟩
                obtain ⟨before, after⟩ := text.cut
                have backslash : IsText [0x5C] :=
                  isText_of_ascii (List.forall_mem_singleton.mpr (by decide))
                have whole := before.append ((backslash.append escapeText).append (keeps [] after))
                simpa using whole
              case h_2 => cases done
            case isFalse =>
              split at done
              case isTrue => cases done
              case isFalse =>
                obtain ⟨written, stands, rfl, rfl, keeps⟩ := ih done
                refine ⟨byte :: written, byte :: stands, by simp, by simp, fun front text => ?_⟩
                have whole := keeps (front ++ [byte]) (by simpa using text)
                simpa using whole

theorem readString_textUpTo {text : String} (done : readString bytes = .ok (text, rest))
    : TextUpTo bytes rest := by
  obtain ⟨content, contentRead, decoded⟩ := readString_eq_ok_iff.mp done
  obtain ⟨written, stands, rfl, rfl, keeps⟩ := readStringBytes_eq_ok_isText contentRead
  have own : IsText written := keeps [] ⟨text, (decode?_eq_some_iff.mp decoded).symm⟩
  have quote : IsText [0x22] := isText_of_ascii (List.forall_mem_singleton.mpr (by decide))
  exact ⟨written ++ [0x22], own.append quote, by simp⟩

-----------------------------------------------------------------------------------------
-- Values
-----------------------------------------------------------------------------------------

theorem readScalar_textUpTo {value : Json} (done : readScalar bytes = .ok (value, rest))
    : TextUpTo bytes rest := by
  have mapped {α : Type} {result : Except FormError α} {make : α → Json × List UInt8}
      {after : List UInt8}
      (reads : ∀ part, result = .ok part → TextUpTo after (make part).2)
      (success : result.map make = .ok (value, rest))
      : TextUpTo after rest := by
    cases result with
    | error e => cases success
    | ok part =>
        have same : (make part).2 = rest := congrArg Prod.snd (Except.ok.inj success)
        exact same ▸ reads part rfl
  cases bytes with
  | nil => cases done
  | cons byte after =>
      simp only [readScalar] at done
      split_ifs at done with null true false quote minus digit
      · exact .cons (null ▸ by decide) (mapped (fun _ => readWord_textUpTo (by decide)) done)
      · exact .cons (true ▸ by decide) (mapped (fun _ => readWord_textUpTo (by decide)) done)
      · exact .cons (false ▸ by decide) (mapped (fun _ => readWord_textUpTo (by decide)) done)
      · exact .cons (quote ▸ by decide) (mapped (fun _ => readString_textUpTo) done)
      · exact .cons (minus ▸ by decide) (mapped (fun _ => readUnsigned_textUpTo) done)
      · exact mapped (fun _ => readUnsigned_textUpTo) done

/-- Between two elements of a list there are ASCII characters, and so there are before its end. -/
theorem nextElement_textUpTo {first more : Bool} (done : nextElement first bytes = .ok (more, rest))
    : TextUpTo bytes (if more then rest else rest.drop 1) := by
  have front := textUpTo_skipBlanks bytes
  unfold nextElement at done
  split at done
  case h_1 => cases done
  case h_2 byte after skipped =>
    rw [skipped] at front
    split_ifs at done with closes isFirst comma
    · cases done
      exact front.trans (.cons (closes ▸ by decide) (.refl _))
    · cases done
      exact front
    · split at done
      case h_1 => cases done
      case h_2 next behind further =>
        split_ifs at done
        cases done
        have ascii : byte < 0x80 := comma ▸ by decide
        exact front.trans (.cons ascii (further ▸ textUpTo_skipBlanks after))

/-- In front of a member's name there are ASCII characters through its quote, and so there are before
the end of an object.
-/
theorem nextMember_textUpTo {first more : Bool} (done : nextMember first bytes = .ok (more, rest))
    : TextUpTo bytes (rest.drop 1) := by
  have front := textUpTo_skipBlanks bytes
  unfold nextMember at done
  split at done
  case h_1 => cases done
  case h_2 byte after skipped =>
    rw [skipped] at front
    split_ifs at done with closes isFirst quote comma
    · cases done
      exact front.trans (.cons (closes ▸ by decide) (.refl _))
    · cases done
      exact front.trans (.cons (quote ▸ by decide) (.refl _))
    · split at done
      case h_1 => cases done
      case h_2 next behind further =>
        split_ifs at done with quote
        cases done
        have name := textUpTo_of_skipBlanks (quote ▸ by decide) further
        exact front.trans (.cons (comma ▸ by decide) name)

theorem passColon_textUpTo (done : passColon bytes = .ok rest) : TextUpTo bytes rest := by
  unfold passColon at done
  split at done
  case h_1 => cases done
  case h_2 byte after skipped =>
    split_ifs at done with colon
    cases done
    exact textUpTo_of_skipBlanks (colon ▸ by decide) skipped

variable {σ : Type}

/-- A list is a text if each of its elements is one, by induction on the bound. -/
theorem foldElements_textUpTo {step : σ → Reader σ}
    (each : ∀ {state bytes next rest}, step state bytes = .ok (next, rest) → TextUpTo bytes rest)
    {bound : Nat} {first : Bool} {state final : σ} {bytes rest : List UInt8}
    (done : foldElements step bound first state bytes = .ok (final, rest))
    : TextUpTo bytes rest := by
  induction bound generalizing first state bytes with
  | zero => cases done
  | succ bound ih =>
      rw [foldElements] at done
      obtain ⟨⟨more, start⟩, entered, done⟩ := bind_eq_ok_iff.mp done
      have front := nextElement_textUpTo (formal_eq_ok_iff.mp entered)
      cases more with
      | false =>
          cases done
          exact front
      | true =>
          obtain ⟨⟨next, behind⟩, stepped, done⟩ := bind_eq_ok_iff.mp done
          exact front.trans ((each stepped).trans (ih done))

/-- An object is a text if each of its members is one from its colon on, by induction on the bound.
-/
theorem foldMembers_textUpTo {step : σ → String → Reader σ}
    (each
      : ∀ {state name bytes next rest},
          step state name bytes = .ok (next, rest) → TextUpTo bytes rest)
    {bound : Nat} {first : Bool} {state final : σ} {bytes rest : List UInt8}
    (done : foldMembers step bound first state bytes = .ok (final, rest))
    : TextUpTo bytes rest := by
  induction bound generalizing first state bytes with
  | zero => cases done
  | succ bound ih =>
      rw [foldMembers] at done
      obtain ⟨⟨more, start⟩, entered, done⟩ := bind_eq_ok_iff.mp done
      have front := nextMember_textUpTo (formal_eq_ok_iff.mp entered)
      cases more with
      | false =>
          cases done
          exact front
      | true =>
          obtain ⟨⟨name, colon⟩, named, done⟩ := bind_eq_ok_iff.mp done
          obtain ⟨⟨next, behind⟩, stepped, done⟩ := bind_eq_ok_iff.mp done
          have name := readString_textUpTo (formal_eq_ok_iff.mp named)
          exact front.trans (name.trans ((each stepped).trans (ih done)))

/-- A value is a text as it is written, by induction on the depth that is left for it. -/
theorem readValue_textUpTo {depth : Nat} {bytes rest : List UInt8} {value : Json}
    (done : readValue depth bytes = .ok (value, rest))
    : TextUpTo bytes rest := by
  induction depth generalizing bytes rest value with
  | zero => cases done
  | succ depth ih =>
      rw [readValue] at done
      split at done
      case h_1 => cases done
      case h_2 byte after skipped =>
        split_ifs at done with isList shallow isObject shallow
        · obtain ⟨⟨items, behind⟩, elements, returned⟩ := bind_eq_ok_iff.mp done
          cases returned
          refine (textUpTo_of_skipBlanks (isList ▸ by decide) skipped).trans ?_
          refine foldElements_textUpTo (fun {state bytes next rest} stepped => ?_) elements
          obtain ⟨⟨item, behind⟩, itemRead, returned⟩ := bind_eq_ok_iff.mp stepped
          cases returned
          exact ih itemRead
        · obtain ⟨⟨members, behind⟩, entries, returned⟩ := bind_eq_ok_iff.mp done
          cases returned
          refine (textUpTo_of_skipBlanks (isObject ▸ by decide) skipped).trans ?_
          refine foldMembers_textUpTo (fun {state name bytes next rest} stepped => ?_) entries
          obtain ⟨⟨value, behind⟩, member, returned⟩ := bind_eq_ok_iff.mp stepped
          obtain ⟨start, colon, valueRead⟩ := bind_eq_ok_iff.mp member
          cases returned
          exact (passColon_textUpTo (formal_eq_ok_iff.mp colon)).trans (ih valueRead)
        · exact (textUpTo_skipBlanks bytes).trans
            (skipped ▸ readScalar_textUpTo (formal_eq_ok_iff.mp done))

/-- A document that is read is the bytes of a text. -/
theorem isText_of_parse {bytes : List UInt8} {value : Json} (parsed : parse bytes = .ok value)
    : IsText bytes := by
  obtain ⟨rest, done, blank⟩ := readDocument_eq_ok_iff.mp parsed
  have behind := textUpTo_skipBlanks rest
  rw [List.isEmpty_iff.mp blank] at behind
  exact ((readValue_textUpTo done).trans behind).isText isText_nil

end LogIntake.Json
