import LogIntake.Proofs.Json.Grammar.Strings
import LogIntake.Proofs.Json.PrintedRows

/-! The grammar of numbers and of the other values without brackets. A number is the one value that
needs something behind it that does not carry it on.
-/

namespace LogIntake.Json

-----------------------------------------------------------------------------------------
-- Numbers
-----------------------------------------------------------------------------------------

/-- One or more digits. -/
structure IsDigits (digits : List UInt8) : Prop where
  nonempty : digits ≠ []
  each : ∀ byte ∈ digits, isDigit byte = true

/-- Whole digits without leading zeros. -/
inductive IsWhole : List UInt8 → Prop
  | zero : IsWhole [byteOf '0']
  | counted {lead digits} (first : isDigit lead = true) (notZero : lead ≠ byteOf '0')
    (each : ∀ byte ∈ digits, isDigit byte = true)
    : IsWhole (lead :: digits)

/-- A point and digits, or nothing. -/
inductive IsFraction : List UInt8 → Prop
  | none : IsFraction []
  | point {digits} (isDigits : IsDigits digits) : IsFraction (byteOf '.' :: digits)

/-- The letter of an exponent, a sign if there is one, and digits; or nothing. -/
inductive IsExponent : List UInt8 → Prop
  | none : IsExponent []
  | power {letter sign digits} (isLetter : letter = byteOf 'e' ∨ letter = byteOf 'E')
    (isSign : sign = [] ∨ sign = [byteOf '+'] ∨ sign = [byteOf '-'])
    (isDigits : IsDigits digits)
    : IsExponent (letter :: (sign ++ digits))

/-- A number without its sign. -/
inductive IsUnsigned : List UInt8 → Prop
  | parts {whole fraction exponent} (isWhole : IsWhole whole) (isFraction : IsFraction fraction)
    (isExponent : IsExponent exponent)
    : IsUnsigned (whole ++ (fraction ++ exponent))

/-- No digit stands at the front. -/
def EndsDigits (rest : List UInt8) : Prop :=
  ∀ byte ∈ rest.head?, isDigit byte = false

theorem EndsValue.endsDigits {rest : List UInt8} (ends : EndsValue rest) : EndsDigits rest :=
  fun byte head => (ends byte head).1

/-- Digits are passed up to a byte that is none. -/
theorem dropWhile_isDigit_append {digits rest : List UInt8}
    (each : ∀ byte ∈ digits, isDigit byte = true) (ends : EndsDigits rest)
    : (digits ++ rest).dropWhile isDigit = rest := by
  rw [List.dropWhile_append_of_pos each]
  cases rest with
  | nil => rfl
  | cons byte rest => exact List.dropWhile_cons_of_neg (by simp [ends byte rfl])

theorem exists_digits_append (bytes : List UInt8)
    : ∃ digits,
        (∀ byte ∈ digits, isDigit byte = true)
        ∧ bytes = digits ++ bytes.dropWhile isDigit
        ∧ EndsDigits (bytes.dropWhile isDigit) := by
  refine ⟨bytes.takeWhile isDigit, List.all_eq_true.mp List.all_takeWhile,
    List.takeWhile_append_dropWhile.symm, fun byte head => ?_⟩
  have ended := List.head?_dropWhile_not isDigit bytes
  rw [Option.mem_def.mp head] at ended
  simpa using ended

theorem exists_isDigits_of_skipSomeDigits {bytes rest : List UInt8}
    (done : skipSomeDigits bytes = .ok rest)
    : ∃ digits, IsDigits digits ∧ bytes = digits ++ rest := by
  cases bytes with
  | nil => cases done
  | cons byte bytes =>
      rw [skipSomeDigits] at done
      split at done
      case isTrue first =>
        cases done
        obtain ⟨digits, each, whole, _⟩ := exists_digits_append bytes
        refine ⟨byte :: digits, ⟨List.cons_ne_nil _ _, List.forall_mem_cons.mpr ⟨first, each⟩⟩, ?_⟩
        rw [List.cons_append, ← whole]
      case isFalse => cases done

theorem IsDigits.skipSomeDigits {digits rest : List UInt8} (isDigits : IsDigits digits)
    (ends : EndsDigits rest)
    : skipSomeDigits (digits ++ rest) = .ok rest := by
  obtain ⟨byte, digits, rfl⟩ := List.exists_cons_of_ne_nil isDigits.nonempty
  obtain ⟨first, each⟩ := List.forall_mem_cons.mp isDigits.each
  rw [List.cons_append, Json.skipSomeDigits, if_pos first, dropWhile_isDigit_append each ends]

theorem exists_isExponent_of_skipOptionalExponent {bytes rest : List UInt8}
    (done : skipOptionalExponent bytes = .ok rest)
    : ∃ exponent, IsExponent exponent ∧ bytes = exponent ++ rest := by
  cases bytes with
  | nil =>
      cases done
      exact ⟨[], .none, rfl⟩
  | cons letter bytes =>
      rw [skipOptionalExponent] at done
      split at done
      case isFalse =>
        cases done
        exact ⟨[], .none, rfl⟩
      case isTrue isLetter =>
        have isLetter : letter = byteOf 'e' ∨ letter = byteOf 'E' := by simpa using isLetter
        cases bytes with
        | nil => cases done
        | cons byte bytes =>
            rw [skipExponent_cons] at done
            split at done
            case isTrue isSign =>
              have isSign : [byte] = [byteOf '+'] ∨ [byte] = [byteOf '-'] := by simpa using isSign
              obtain ⟨digits, isDigits, rfl⟩ := exists_isDigits_of_skipSomeDigits done
              exact ⟨_, .power isLetter (.inr isSign) isDigits, rfl⟩
            case isFalse =>
              obtain ⟨digits, isDigits, whole⟩ := exists_isDigits_of_skipSomeDigits done
              exact ⟨_, .power isLetter (.inl rfl) isDigits, by rw [whole]; rfl⟩

/-- A byte that begins an exponent or a fraction is no digit. -/
theorem IsExponent.endsDigits {exponent rest : List UInt8} (isExponent : IsExponent exponent)
    (ends : EndsDigits rest)
    : EndsDigits (exponent ++ rest) := by
  cases isExponent with
  | none => exact ends
  | power isLetter =>
      intro byte head
      cases head
      rcases isLetter with rfl | rfl <;> rfl

/-- A sign stands in front of a byte that is none. -/
theorem skipExponent_append {sign digits rest : List UInt8}
    (isSign : sign = [] ∨ sign = [byteOf '+'] ∨ sign = [byteOf '-']) (isDigits : IsDigits digits)
    (ends : EndsDigits rest)
    : skipExponent (sign ++ (digits ++ rest)) = .ok rest := by
  have passed := isDigits.skipSomeDigits ends
  rcases isSign with rfl | rfl | rfl
  · obtain ⟨byte, digits, rfl⟩ := List.exists_cons_of_ne_nil isDigits.nonempty
    have noSign : ¬(byte = byteOf '+' || byte = byteOf '-') = true := by
      have first := isDigits.each byte List.mem_cons_self
      intro isSign
      simp only [Bool.or_eq_true, decide_eq_true_eq] at isSign
      rcases isSign with rfl | rfl <;> cases first
    rw [List.nil_append, List.cons_append, skipExponent_cons, if_neg noSign]
    exact passed
  · rw [List.singleton_append, skipExponent_cons, if_pos (by decide), passed]
  · rw [List.singleton_append, skipExponent_cons, if_pos (by decide), passed]

theorem IsExponent.skipOptionalExponent {exponent rest : List UInt8}
    (isExponent : IsExponent exponent) (ends : EndsValue rest)
    : skipOptionalExponent (exponent ++ rest) = .ok rest := by
  cases isExponent with
  | none =>
      cases rest with
      | nil => rfl
      | cons byte rest =>
          have noLetter : ¬(byte = byteOf 'e' || byte = byteOf 'E') = true :=
            Bool.eq_false_iff.mp (ends byte rfl).2.2
          exact if_neg noLetter
  | @power letter sign digits isLetter isSign isDigits =>
      have letterSeen : (letter = byteOf 'e' || letter = byteOf 'E') = true := by
        simpa using isLetter
      rw [List.cons_append, List.append_assoc, Json.skipOptionalExponent, if_pos letterSeen]
      exact skipExponent_append isSign isDigits ends.endsDigits

theorem exists_parts_of_skipAfterWhole {bytes rest : List UInt8}
    (done : skipAfterWhole bytes = .ok rest)
    : ∃ fraction exponent,
        IsFraction fraction ∧ IsExponent exponent ∧ bytes = fraction ++ (exponent ++ rest) := by
  cases bytes with
  | nil =>
      cases done
      exact ⟨[], [], .none, .none, rfl⟩
  | cons byte bytes =>
      rw [skipAfterWhole_cons] at done
      split at done
      case isTrue point =>
        subst point
        cases bytes with
        | nil => cases done
        | cons digit bytes =>
            rw [skipFraction] at done
            split at done
            case isTrue first =>
              obtain ⟨digits, each, whole, _⟩ := exists_digits_append bytes
              obtain ⟨exponent, isExponent, behind⟩ :=
                exists_isExponent_of_skipOptionalExponent done
              have isDigits : IsDigits (digit :: digits) :=
                ⟨List.cons_ne_nil _ _, List.forall_mem_cons.mpr ⟨first, each⟩⟩
              refine ⟨_, exponent, .point isDigits, isExponent, ?_⟩
              rw [whole, behind]
              rfl
            case isFalse => cases done
      case isFalse =>
        obtain ⟨exponent, isExponent, whole⟩ := exists_isExponent_of_skipOptionalExponent done
        exact ⟨[], exponent, .none, isExponent, whole⟩

theorem skipAfterWhole_append {fraction exponent rest : List UInt8}
    (isFraction : IsFraction fraction) (isExponent : IsExponent exponent) (ends : EndsValue rest)
    : skipAfterWhole (fraction ++ (exponent ++ rest)) = .ok rest := by
  have passed := isExponent.skipOptionalExponent ends
  cases isFraction with
  | none =>
      -- No point may stand here, be it at the exponent or behind it.
      rw [List.nil_append]
      cases whole : exponent ++ rest with
      | nil =>
          obtain ⟨rfl, rfl⟩ := List.append_eq_nil_iff.mp whole
          rfl
      | cons byte bytes =>
          have noPoint : byte ≠ byteOf '.' := by
            cases isExponent with
            | none =>
                rw [List.nil_append] at whole
                exact (ends byte (by rw [whole]; rfl)).2.1
            | power isLetter =>
                obtain ⟨rfl, _⟩ := List.cons.inj whole
                rcases isLetter with rfl | rfl <;> decide
          rw [skipAfterWhole_cons, if_neg noPoint, ← whole, passed]
  | @point digits isDigits =>
      obtain ⟨digit, digits, rfl⟩ := List.exists_cons_of_ne_nil isDigits.nonempty
      obtain ⟨first, each⟩ := List.forall_mem_cons.mp isDigits.each
      rw [List.cons_append, skipAfterWhole_cons, if_pos rfl, List.cons_append, skipFraction,
        if_pos first, dropWhile_isDigit_append each (isExponent.endsDigits ends.endsDigits), passed]

theorem IsFraction.endsDigits {fraction rest : List UInt8} (isFraction : IsFraction fraction)
    (ends : EndsDigits rest)
    : EndsDigits (fraction ++ rest) := by
  cases isFraction with
  | none => exact ends
  | point =>
      intro byte head
      cases head
      rfl

/-- A number that is passed has the form of one. -/
theorem exists_isUnsigned_of_skipUnsigned {bytes rest : List UInt8}
    (done : skipUnsigned bytes = .ok rest)
    : ∃ number, IsUnsigned number ∧ bytes = number ++ rest := by
  cases bytes with
  | nil => cases done
  | cons byte bytes =>
      by_cases zero : byte = byteOf '0'
      · subst zero
        rw [skipUnsigned_zero] at done
        split at done
        case isTrue => cases done
        case isFalse =>
          obtain ⟨fraction, exponent, isFraction, isExponent, rfl⟩ :=
            exists_parts_of_skipAfterWhole done
          exact ⟨_, .parts .zero isFraction isExponent, by simp⟩
      · rw [skipUnsigned_cons zero] at done
        split at done
        case isTrue first =>
          obtain ⟨digits, each, whole, _⟩ := exists_digits_append bytes
          obtain ⟨fraction, exponent, isFraction, isExponent, behind⟩ :=
            exists_parts_of_skipAfterWhole done
          refine ⟨_, .parts (.counted first zero each) isFraction isExponent, ?_⟩
          rw [whole, behind]
          simp
        case isFalse => cases done

/-- A number is passed in front of what does not carry it on. -/
theorem IsUnsigned.skipUnsigned {number rest : List UInt8} (isUnsigned : IsUnsigned number)
    (ends : EndsValue rest)
    : skipUnsigned (number ++ rest) = .ok rest := by
  cases isUnsigned with
  | @parts whole fraction exponent isWhole isFraction isExponent =>
      have passed := skipAfterWhole_append isFraction isExponent ends
      have behind : EndsDigits (fraction ++ (exponent ++ rest)) :=
        isFraction.endsDigits (isExponent.endsDigits ends.endsDigits)
      rw [List.append_assoc, List.append_assoc]
      cases isWhole with
      | zero =>
          have alone : ¬(fraction ++ (exponent ++ rest)).head?.any isDigit = true := by
            rw [Option.any_eq_true]
            intro carriesOn
            obtain ⟨byte, head, digit⟩ := carriesOn
            exact Bool.false_ne_true ((behind byte head).symm.trans digit)
          rw [List.singleton_append, skipUnsigned_zero, if_neg alone, passed]
      | counted first notZero each =>
          rw [List.cons_append, skipUnsigned_cons notZero, if_pos first,
            dropWhile_isDigit_append each behind, passed]

-----------------------------------------------------------------------------------------
-- Values without brackets
-----------------------------------------------------------------------------------------

/-- The bytes of a word. -/
def wordBytes (word : String) : List UInt8 :=
  word.toList.map byteOf

/-- A value that is neither a list nor an object. -/
inductive IsScalar : List UInt8 → Prop
  | word {word} (known : word ∈ ["null", "true", "false"]) : IsScalar (wordBytes word)
  | string {text} (quoted : IsQuoted text) : IsScalar (0x22 :: (text ++ [0x22]))
  | number {number} (isUnsigned : IsUnsigned number) : IsScalar number
  | negative {number} (isUnsigned : IsUnsigned number) : IsScalar (byteOf '-' :: number)

theorem readWord_eq_ok_iff {word : List Char} {bytes rest : List UInt8}
    : readWord word bytes = .ok rest ↔ bytes = word.map byteOf ++ rest := by
  induction word generalizing bytes with
  | nil => simp [readWord]
  | cons c word ih =>
      cases bytes with
      | nil => simp [readWord]
      | cons byte bytes =>
          rw [readWord, List.map_cons, List.cons_append, List.cons.injEq]
          split_ifs with same
          · rw [ih]
            exact (and_iff_right same).symm
          · exact iff_of_false (fun failed => by cases failed) fun both => same both.1

/-- A value without brackets that is passed has the form of one. -/
theorem exists_isScalar_of_skipScalar {bytes rest : List UInt8}
    (done : skipScalar bytes = .ok rest)
    : ∃ scalar, IsScalar scalar ∧ bytes = scalar ++ rest := by
  cases bytes with
  | nil => cases done
  | cons byte bytes =>
      have word (name : String) {letters : List Char} (known : name ∈ ["null", "true", "false"])
          (spelled : wordBytes name = byte :: letters.map byteOf)
          (done : readWord letters bytes = .ok rest)
          : ∃ scalar, IsScalar scalar ∧ byte :: bytes = scalar ++ rest := by
        refine ⟨_, .word known, ?_⟩
        rw [readWord_eq_ok_iff.mp done, spelled]
        rfl
      simp only [skipScalar] at done
      split_ifs at done with isNull isTrue isFalse isString isNegative digit
      · exact word "null" (by decide) (by rw [isNull]; rfl) done
      · exact word "true" (by decide) (by rw [isTrue]; rfl) done
      · exact word "false" (by decide) (by rw [isFalse]; rfl) done
      · obtain ⟨text, quoted, rfl⟩ := skipString_eq_ok_iff.mp done
        refine ⟨_, .string quoted, ?_⟩
        rw [isString]
        simp [byteOf]
      · obtain ⟨number, isUnsigned, rfl⟩ := exists_isUnsigned_of_skipUnsigned done
        exact ⟨_, .negative isUnsigned, by rw [isNegative]; rfl⟩
      · obtain ⟨number, isUnsigned, whole⟩ := exists_isUnsigned_of_skipUnsigned done
        exact ⟨number, .number isUnsigned, whole⟩

/-- A number starts with a digit. -/
theorem IsUnsigned.exists_digit {number : List UInt8} (isUnsigned : IsUnsigned number)
    : ∃ digit digits, isDigit digit = true ∧ number = digit :: digits := by
  cases isUnsigned with
  | parts isWhole =>
      cases isWhole with
      | zero => exact ⟨_, _, rfl, rfl⟩
      | counted first => exact ⟨_, _, first, rfl⟩

/-- A value without brackets is passed in front of what does not carry it on. -/
theorem IsScalar.skipScalar {scalar rest : List UInt8} (isScalar : IsScalar scalar)
    (ends : EndsValue rest)
    : skipScalar (scalar ++ rest) = .ok rest := by
  cases isScalar with
  | @word word known =>
      have passed (letters : List Char)
          : readWord letters (letters.map byteOf ++ rest) = .ok rest :=
        readWord_eq_ok_iff.mpr rfl
      simp only [List.mem_cons, List.not_mem_nil, or_false] at known
      rcases known with rfl | rfl | rfl
      · exact passed ['u', 'l', 'l']
      · exact passed ['r', 'u', 'e']
      · exact passed ['a', 'l', 's', 'e']
  | @string text quoted =>
      rw [List.cons_append, List.append_assoc]
      exact skipString_eq_ok_iff.mpr ⟨text, quoted, rfl⟩
  | number isUnsigned =>
      have passed := isUnsigned.skipUnsigned ends
      obtain ⟨digit, digits, isDigit, rfl⟩ := isUnsigned.exists_digit
      have apart (other : UInt8) (noDigit : Json.isDigit other = false) : digit ≠ other := by
        intro equal
        subst equal
        exact Bool.false_ne_true (noDigit.symm.trans isDigit)
      rw [List.cons_append] at passed ⊢
      rw [Json.skipScalar, if_neg (apart _ rfl), if_neg (apart _ rfl), if_neg (apart _ rfl),
        if_neg (apart _ rfl), if_neg (apart _ rfl), if_pos isDigit, passed]
  | negative isUnsigned => exact isUnsigned.skipUnsigned ends

end LogIntake.Json
