import LogIntake.Proofs.Json.Taking
import Mathlib.Tactic.SplitIfs

/-! Values that are neither lists nor objects, passed without interpreting them. A number is the
one value that has to look at the byte behind it, where its digits end.
-/

namespace LogIntake.Json

-----------------------------------------------------------------------------------------
-- Words and strings
-----------------------------------------------------------------------------------------

theorem readWord_takes (word : List Char) : Takes True (passing (readWord word)) := by
  intro bytes _ rest done
  rw [passing_eq_ok_iff] at done
  induction word generalizing bytes with
  | nil =>
      cases done
      exact ⟨[], rfl, fun _ => trivial, fun other _ => passing_eq_ok_iff.mpr rfl⟩
  | cons letter word ih =>
      cases bytes with
      | nil => cases done
      | cons byte bytes =>
          rw [readWord] at done
          split at done
          case isTrue same =>
            obtain ⟨taken, rfl, _, again⟩ := ih bytes done
            refine ⟨byte :: taken, rfl, by simp, fun other follows => passing_eq_ok_iff.mpr ?_⟩
            exact (if_pos same).trans (passing_eq_ok_iff.mp (again other follows))
          case isFalse => cases done

theorem skipEscape_takes : Takes False (passing skipEscape) := by
  intro bytes _ rest done
  rw [passing_eq_ok_iff] at done
  unfold skipEscape at done
  split at done
  case h_1 => cases done
  case h_2 after =>
    obtain ⟨⟨unit, behind⟩, quadRead, returned⟩ := bind_eq_ok_iff.mp done
    cases returned
    obtain ⟨quad, rfl, _, again⟩ := readHexQuad_takes after unit rest quadRead
    refine ⟨0x75 :: quad, rfl, by simp, fun other _ => passing_eq_ok_iff.mpr ?_⟩
    exact bind_eq_ok_iff.mpr ⟨(unit, other), again other False.elim, rfl⟩
  case h_3 byte after notUnicode =>
    split at done
    case isTrue simple =>
      cases done
      refine ⟨[byte], rfl, by simp, fun other _ => passing_eq_ok_iff.mpr ?_⟩
      simp only [List.singleton_append, skipEscape, simple]
      rfl
    case isFalse => cases done

/-- A string is passed whatever follows, under any bound that is no less than the number of its
bytes. The induction is on the bound of the first passing.
-/
theorem skipStringBytes_eq_ok {bound : Nat} {bytes rest : List UInt8}
    (done : skipStringBytes bound bytes = .ok rest)
    : ∃ taken,
        bytes = taken ++ rest
        ∧ taken ≠ []
        ∧ ∀ bound other,
            taken.length ≤ bound → skipStringBytes bound (taken ++ other) = .ok other := by
  induction bound generalizing bytes with
  | zero => cases done
  | succ bound ih =>
      cases bytes with
      | nil => cases done
      | cons byte after =>
          rw [skipStringBytes] at done
          split at done
          case isTrue quote =>
            cases done
            refine ⟨[byte], rfl, by simp, fun bound other enough => ?_⟩
            obtain ⟨bound, rfl⟩ := Nat.exists_eq_add_one.mpr enough
            exact if_pos quote
          case isFalse notQuote =>
            split at done
            case isTrue backslash =>
              subst backslash
              split at done
              case h_1 behind escaped =>
                obtain ⟨escape, rfl, _, escapeAgain⟩ :=
                  skipEscape_takes after () behind (passing_eq_ok_iff.mpr escaped)
                obtain ⟨taken, rfl, _, again⟩ := ih done
                refine ⟨0x5C :: escape ++ taken, by simp, by simp, fun bound other enough => ?_⟩
                have room : escape.length + taken.length + 1 ≤ bound := by simpa using enough
                obtain ⟨bound, rfl⟩ := Nat.exists_eq_add_one.mpr (by omega : 0 < bound)
                have passed := passing_eq_ok_iff.mp (escapeAgain (taken ++ other) False.elim)
                rw [List.append_assoc, List.cons_append, skipStringBytes_escape, passed]
                exact again bound other (by omega)
              case h_2 => cases done
            case isFalse notBackslash =>
              split at done
              case isTrue => cases done
              case isFalse solid =>
                obtain ⟨taken, rfl, _, again⟩ := ih done
                refine ⟨byte :: taken, rfl, by simp, fun bound other enough => ?_⟩
                obtain ⟨bound, rfl⟩ := Nat.exists_eq_add_one.mpr (Nat.zero_lt_of_lt enough)
                rw [List.cons_append, skipStringBytes, if_neg notQuote, if_neg notBackslash,
                  if_neg solid]
                exact again bound other (Nat.le_of_succ_le_succ enough)

theorem skipString_takes : Takes False (passing skipString) := by
  intro bytes _ rest done
  obtain ⟨taken, split, nonempty, again⟩ := skipStringBytes_eq_ok (passing_eq_ok_iff.mp done)
  refine ⟨taken, split, nonempty, fun other _ => passing_eq_ok_iff.mpr ?_⟩
  exact again _ other (by simp; omega)

-----------------------------------------------------------------------------------------
-- Numbers
-----------------------------------------------------------------------------------------

/-- Digits end where the next byte is none. -/
theorem skipDigits_takes
    : Takes True (passing fun bytes => Except.ok (ε := FormError) (bytes.dropWhile isDigit)) := by
  intro bytes _ rest done
  cases passing_eq_ok_iff.mp done
  refine ⟨bytes.takeWhile isDigit, List.takeWhile_append_dropWhile.symm, fun _ => trivial, ?_⟩
  intro other follows
  rw [passing_eq_ok_iff, List.dropWhile_append_of_pos (List.all_eq_true.mp List.all_takeWhile)]
  congr 1
  cases other with
  | nil => rfl
  | cons byte other =>
      apply List.dropWhile_cons_of_neg
      have head := List.head?_dropWhile_not isDigit bytes
      rw [← follows trivial] at head
      simpa using head

/-- Passes digits of which the first is required. -/
def skipSomeDigits : List UInt8 → Except FormError (List UInt8)
  | byte :: rest =>
      if isDigit byte then .ok (rest.dropWhile isDigit) else .error .invalidNumber
  | [] => .error .invalidNumber

theorem skipSomeDigits_cons_takes (byte : UInt8)
    : Takes True (passing fun bytes => skipSomeDigits (byte :: bytes)) := by
  simp only [skipSomeDigits]
  split_ifs
  · exact skipDigits_takes
  · intro _ _ _ done
    cases done

theorem skipSomeDigits_takes : Takes True (passing skipSomeDigits) :=
  .of_cons nofun skipSomeDigits_cons_takes

theorem skipExponent_cons (byte : UInt8) (bytes : List UInt8)
    : skipExponent (byte :: bytes)
      = if byte = byteOf '+' || byte = byteOf '-' then skipSomeDigits bytes
        else skipSomeDigits (byte :: bytes) := by
  unfold skipExponent
  by_cases sign : (byte = byteOf '+' || byte = byteOf '-') = true
  · rw [if_pos sign]
    dsimp only
    rw [if_pos sign]
    cases bytes <;> rfl
  · rw [if_neg sign]
    dsimp only
    rw [if_neg sign]
    rfl

theorem skipExponent_takes : Takes True (passing skipExponent) := by
  refine .of_cons nofun fun byte => ?_
  change Takes True (passing fun bytes => skipExponent (byte :: bytes))
  simp only [skipExponent_cons]
  split_ifs
  · exact skipSomeDigits_takes
  · exact skipSomeDigits_cons_takes byte

theorem skipOptionalExponent_takes : Takes True (passing skipOptionalExponent) := by
  intro bytes _ rest done
  rw [passing_eq_ok_iff] at done
  cases bytes with
  | nil =>
      cases done
      refine ⟨[], rfl, fun _ => trivial, fun other follows => ?_⟩
      rw [List.head?_eq_none_iff.mp (follows trivial)]
      rfl
  | cons byte bytes =>
      rw [skipOptionalExponent] at done
      split at done
      case isTrue letter =>
        obtain ⟨taken, rfl, _, again⟩ :=
          skipExponent_takes bytes () rest (passing_eq_ok_iff.mpr done)
        refine ⟨byte :: taken, rfl, by simp, fun other follows => passing_eq_ok_iff.mpr ?_⟩
        exact (if_pos letter).trans (passing_eq_ok_iff.mp (again other follows))
      case isFalse noLetter =>
        cases done
        refine ⟨[], rfl, fun _ => trivial, fun other follows => passing_eq_ok_iff.mpr ?_⟩
        obtain ⟨tail, rfl⟩ := List.head?_eq_some_iff.mp (follows trivial)
        exact if_neg noLetter

/-- Passes the digits behind a point, and what may follow them. -/
def skipFraction : List UInt8 → Except FormError (List UInt8)
  | digit :: rest =>
      if isDigit digit then skipOptionalExponent (rest.dropWhile isDigit)
      else .error .invalidNumber
  | [] => .error .invalidNumber

theorem skipAfterWhole_cons (byte : UInt8) (bytes : List UInt8)
    : skipAfterWhole (byte :: bytes)
      = if byte = byteOf '.' then skipFraction bytes
        else skipOptionalExponent (byte :: bytes) := by
  cases bytes with
  | nil => rfl
  | cons digit bytes =>
      simp only [skipAfterWhole, skipFraction, List.dropWhile_cons]
      split_ifs <;> rfl

theorem skipFraction_takes : Takes True (passing skipFraction) := by
  refine .of_cons nofun fun digit => ?_
  change Takes True (passing fun bytes => skipFraction (digit :: bytes))
  simp only [skipFraction]
  split_ifs
  · exact skipDigits_takes.andThen skipOptionalExponent_takes
  · intro _ _ _ done
    cases done

theorem skipAfterWhole_takes : Takes True (passing skipAfterWhole) := by
  intro bytes _ rest done
  rw [passing_eq_ok_iff] at done
  cases bytes with
  | nil =>
      cases done
      refine ⟨[], rfl, fun _ => trivial, fun other follows => ?_⟩
      rw [List.head?_eq_none_iff.mp (follows trivial)]
      rfl
  | cons byte bytes =>
      rw [skipAfterWhole_cons] at done
      split at done
      case isTrue point =>
        obtain ⟨taken, rfl, _, again⟩ :=
          skipFraction_takes bytes () rest (passing_eq_ok_iff.mpr done)
        refine ⟨byte :: taken, rfl, by simp, fun other follows => passing_eq_ok_iff.mpr ?_⟩
        rw [List.cons_append, skipAfterWhole_cons, if_pos point]
        exact passing_eq_ok_iff.mp (again other follows)
      case isFalse noPoint =>
        obtain ⟨taken, split, _, again⟩ :=
          skipOptionalExponent_takes (byte :: bytes) () rest (passing_eq_ok_iff.mpr done)
        refine ⟨taken, split, fun _ => trivial, fun other follows => passing_eq_ok_iff.mpr ?_⟩
        have first : (taken ++ other).head? = some byte := by
          rw [head?_append_congr fun _ => follows trivial, ← split]
          rfl
        obtain ⟨tail, whole⟩ := List.head?_eq_some_iff.mp first
        rw [whole, skipAfterWhole_cons, if_neg noPoint, ← whole]
        exact passing_eq_ok_iff.mp (again other follows)

/-- A leading zero stands alone. -/
theorem skipUnsigned_zero (bytes : List UInt8)
    : skipUnsigned (byteOf '0' :: bytes)
      = if bytes.head?.any isDigit then .error .invalidNumber else skipAfterWhole bytes := by
  cases bytes <;> rfl

theorem skipUnsigned_cons {byte : UInt8} (notZero : byte ≠ byteOf '0') (bytes : List UInt8)
    : skipUnsigned (byte :: bytes)
      = if isDigit byte then skipAfterWhole (bytes.dropWhile isDigit)
        else .error .invalidNumber := by
  simp only [skipUnsigned, if_neg notZero]

/-- A number behind its first digit. -/
theorem skipUnsigned_takes (byte : UInt8)
    : Takes True (passing fun bytes => skipUnsigned (byte :: bytes)) := by
  by_cases zero : byte = byteOf '0'
  · subst zero
    intro bytes _ rest done
    rw [passing_eq_ok_iff, skipUnsigned_zero] at done
    split at done
    case isTrue => cases done
    case isFalse alone =>
      obtain ⟨taken, rfl, nonempty, again⟩ :=
        skipAfterWhole_takes bytes () rest (passing_eq_ok_iff.mpr done)
      refine ⟨taken, rfl, nonempty, fun other follows => passing_eq_ok_iff.mpr ?_⟩
      rw [skipUnsigned_zero, head?_append_congr fun _ => follows trivial, if_neg alone]
      exact passing_eq_ok_iff.mp (again other follows)
  · simp only [skipUnsigned_cons zero]
    split_ifs
    · exact skipDigits_takes.andThen skipAfterWhole_takes
    · intro _ _ _ done
      cases done

-----------------------------------------------------------------------------------------
-- Scalars
-----------------------------------------------------------------------------------------

/-- A scalar is recognised by its first byte. -/
theorem skipScalar_takes (byte : UInt8)
    : Takes True (passing fun bytes => skipScalar (byte :: bytes)) := by
  simp only [skipScalar]
  split_ifs
  · exact readWord_takes _
  · exact readWord_takes _
  · exact readWord_takes _
  · exact skipString_takes.weaken True
  · exact .of_cons nofun skipUnsigned_takes
  · exact skipUnsigned_takes byte
  · intro _ _ _ done
    cases done

end LogIntake.Json
