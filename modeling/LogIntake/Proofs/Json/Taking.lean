import LogIntake.Json.Reader
import LogIntake.Proofs.Json.Ordered

/-! What readers take off the front of the bytes. A reader decides by the bytes that it takes, and
some look at the byte behind them besides, so that the same bytes are taken with the same value in
front of other bytes. This allows to speak of the text of a value apart from the document around it.
-/

namespace LogIntake.Json

variable {ε α β : Type}

/-- What the reader takes off, it takes off with the same value whatever follows. A reader that
looks ahead may ask for the same following byte, and only such a reader may take nothing at all.
-/
def Takes (ahead : Prop) (read : List UInt8 → Except ε (α × List UInt8)) : Prop :=
  ∀ bytes value rest,
    read bytes = .ok (value, rest)
    → ∃ taken,
        bytes = taken ++ rest
        ∧ (taken = [] → ahead)
        ∧ ∀ other,
            (ahead → other.head? = rest.head?) → read (taken ++ other) = .ok (value, other)

/-- A function that passes bytes, as a reader without a value. -/
def passing (pass : List UInt8 → Except ε (List UInt8)) (bytes : List UInt8)
    : Except ε (Unit × List UInt8) :=
  (pass bytes).map fun rest => ((), rest)

@[simp]
theorem passing_eq_ok_iff {pass : List UInt8 → Except ε (List UInt8)} {bytes rest : List UInt8}
    : passing pass bytes = .ok ((), rest) ↔ pass bytes = .ok rest := by
  unfold passing
  cases pass bytes <;> simp [Except.map]

/-- Behind the same bytes, what stands first depends on what follows only if there are none. -/
theorem head?_append_congr {taken other rest : List UInt8}
    (same : taken = [] → other.head? = rest.head?)
    : (taken ++ other).head? = (taken ++ rest).head? := by
  cases taken with
  | nil => exact same rfl
  | cons byte taken => rfl

namespace Takes

/-- A reader that looks nowhere ahead may be told what follows. -/
theorem weaken {read : List UInt8 → Except ε (α × List UInt8)} (takes : Takes False read)
    (ahead : Prop)
    : Takes ahead read := by
  intro bytes value rest done
  obtain ⟨taken, split, nonempty, again⟩ := takes bytes value rest done
  exact ⟨taken, split, fun empty => (nonempty empty).elim, fun other _ => again other False.elim⟩

/-- Of two readers in turn only the second looks at what follows. Witness: the first byte that the
second takes is what the first one sees, and a second one that takes nothing may itself be told.
-/
theorem bind {ahead behind : Prop} {first : List UInt8 → Except ε (α × List UInt8)}
    {next : α → List UInt8 → Except ε (β × List UInt8)} (takesFirst : Takes ahead first)
    (takesNext : ∀ value, Takes behind (next value))
    : Takes behind fun bytes => first bytes >>= fun result => next result.1 result.2 := by
  intro bytes result rest done
  obtain ⟨⟨value, middle⟩, firstDone, nextDone⟩ := bind_eq_ok_iff.mp done
  obtain ⟨front, rfl, _, again⟩ := takesFirst bytes value middle firstDone
  obtain ⟨back, rfl, nonempty, nextAgain⟩ := takesNext value middle result rest nextDone
  refine ⟨front ++ back, (List.append_assoc ..).symm, ?_, ?_⟩
  · exact fun empty => nonempty (List.append_eq_nil_iff.mp empty).2
  · intro other follows
    have seen : (back ++ other).head? = (back ++ rest).head? :=
      head?_append_congr fun empty => follows (nonempty empty)
    rw [List.append_assoc]
    exact bind_eq_ok_iff.mpr
      ⟨(value, back ++ other), again _ fun _ => seen, nextAgain other follows⟩

/-- What is made of the value afterwards changes nothing about what is taken. -/
theorem finish {ahead : Prop} {read : List UInt8 → Except ε (α × List UInt8)}
    (takes : Takes ahead read) (finish : α → Except ε β)
    : Takes ahead fun bytes => do
        let (value, bytes) ← read bytes
        let result ← finish value
        return (result, bytes) := by
  intro bytes result rest done
  obtain ⟨⟨value, behind⟩, readDone, finishing⟩ := bind_eq_ok_iff.mp done
  obtain ⟨_, finished, returned⟩ := bind_eq_ok_iff.mp finishing
  cases returned
  obtain ⟨taken, split, nonempty, again⟩ := takes bytes value rest readDone
  refine ⟨taken, split, nonempty, fun other follows => ?_⟩
  refine bind_eq_ok_iff.mpr ⟨(value, other), again other follows, ?_⟩
  exact bind_eq_ok_iff.mpr ⟨result, finished, rfl⟩

/-- Of two functions in turn that pass bytes only the second looks at what follows. -/
theorem andThen {ahead behind : Prop} {first next : List UInt8 → Except ε (List UInt8)}
    (takesFirst : Takes ahead (passing first)) (takesNext : Takes behind (passing next))
    : Takes behind (passing fun bytes => first bytes >>= next) := by
  have same : (passing fun bytes => first bytes >>= next)
      = fun bytes => passing first bytes >>= fun result => passing next result.2 := by
    funext bytes
    simp only [passing]
    cases first bytes <;> rfl
  rw [same]
  exact takesFirst.bind fun _ => takesNext

/-- A reader that takes a first byte may be looked at behind each first byte on its own. -/
theorem of_cons {ahead : Prop} {read : List UInt8 → Except ε (α × List UInt8)}
    (needs : ∀ value rest, read [] ≠ .ok (value, rest))
    (behind : ∀ byte, Takes ahead fun bytes => read (byte :: bytes))
    : Takes ahead read := by
  intro bytes value rest done
  cases bytes with
  | nil => exact (needs value rest done).elim
  | cons byte bytes =>
      obtain ⟨taken, rfl, _, again⟩ := behind byte bytes value rest done
      exact ⟨byte :: taken, rfl, by simp, again⟩

end Takes

-----------------------------------------------------------------------------------------
-- Blanks and colons
-----------------------------------------------------------------------------------------

theorem isBlank_of_skipBlanks {bytes rest : List UInt8} {byte : UInt8}
    (skipped : skipBlanks bytes = byte :: rest)
    : isBlank byte = false := by
  have head := List.head?_dropWhile_not isBlank bytes
  unfold skipBlanks at skipped
  simpa [skipped] using head

theorem skipBlanks_cons {byte : UInt8} (solid : isBlank byte = false) (bytes : List UInt8)
    : skipBlanks (byte :: bytes) = byte :: bytes :=
  List.dropWhile_cons_of_neg (by simp [solid])

theorem skipBlanks_skipBlanks (bytes : List UInt8)
    : skipBlanks (skipBlanks bytes) = skipBlanks bytes := by
  cases skipped : skipBlanks bytes with
  | nil => rfl
  | cons byte rest => exact skipBlanks_cons (isBlank_of_skipBlanks skipped) rest

/-- Behind blanks stands a byte that ends them, whatever follows it. -/
theorem skipBlanks_eq_cons {bytes rest : List UInt8} {byte : UInt8}
    (skipped : skipBlanks bytes = byte :: rest)
    : ∃ blanks,
        bytes = blanks ++ byte :: rest
        ∧ ∀ tail, skipBlanks (blanks ++ byte :: tail) = byte :: tail := by
  refine ⟨bytes.takeWhile isBlank, ?_, ?_⟩
  · rw [← skipped]
    exact List.takeWhile_append_dropWhile.symm
  · intro tail
    have blank : ∀ other ∈ bytes.takeWhile isBlank, isBlank other = true :=
      List.all_eq_true.mp List.all_takeWhile
    rw [skipBlanks, List.dropWhile_append_of_pos blank]
    exact skipBlanks_cons (isBlank_of_skipBlanks skipped) tail

theorem passColon_takes : Takes False (passing passColon) := by
  intro bytes _ rest done
  rw [passing_eq_ok_iff, passColon] at done
  split at done
  case h_1 => cases done
  case h_2 byte after skipped =>
    split at done
    case isFalse => cases done
    case isTrue colon =>
      cases done
      obtain ⟨blanks, split, again⟩ := skipBlanks_eq_cons skipped
      refine ⟨blanks ++ [byte], by simp [split], by simp, ?_⟩
      intro other _
      rw [passing_eq_ok_iff, passColon, List.append_assoc, List.singleton_append, again]
      exact if_pos colon

-----------------------------------------------------------------------------------------
-- Strings
-----------------------------------------------------------------------------------------

theorem readHexQuad_takes : Takes False readHexQuad := by
  intro bytes unit rest done
  unfold readHexQuad at done
  split at done
  case h_1 a b c d after =>
    split at done
    case h_1 value quad =>
      cases done
      refine ⟨[a, b, c, d], rfl, by simp, ?_⟩
      intro other _
      simp [readHexQuad, quad]
    case h_2 => cases done
  case h_2 => cases done

theorem readLowSurrogate_pair (high : Nat) (bytes : List UInt8)
    : readLowSurrogate high (0x5C :: 0x75 :: bytes)
      = readHexQuad bytes >>= fun quad =>
          if isLowSurrogate quad.1 then .ok (bytesOfCode (pairCode high quad.1), quad.2)
          else .error .loneSurrogate := by
  rfl

theorem readEscape_unicode (bytes : List UInt8)
    : readEscape (0x75 :: bytes)
      = readHexQuad bytes >>= fun quad =>
          if isLowSurrogate quad.1 then .error .loneSurrogate
          else if isHighSurrogate quad.1 then readLowSurrogate quad.1 quad.2
          else .ok (bytesOfCode quad.1, quad.2) := by
  rfl

theorem readEscape_simple {byte : UInt8} (notUnicode : byte ≠ 0x75) (bytes : List UInt8)
    : readEscape (byte :: bytes)
      = match simpleEscape? byte with
        | some value => .ok ([value], bytes)
        | none => .error .invalidEscape := by
  cases simple : simpleEscape? byte <;> simp only [readEscape, simple]

theorem skipStringBytes_escape (bound : Nat) (bytes : List UInt8)
    : skipStringBytes (bound + 1) (0x5C :: bytes)
      = skipEscape bytes >>= skipStringBytes bound := by
  rw [skipStringBytes, if_neg (by decide), if_pos rfl]
  cases skipEscape bytes <;> rfl

theorem skipStringBytes_unicode {bytes rest : List UInt8} {unit : Nat}
    (quad : readHexQuad bytes = .ok (unit, rest)) (bound : Nat)
    : skipStringBytes (bound + 1) (0x5C :: 0x75 :: bytes) = skipStringBytes bound rest := by
  rw [skipStringBytes_escape, skipEscape, quad]
  rfl

theorem skipStringBytes_simple {byte : UInt8} (notUnicode : byte ≠ 0x75)
    (simple : (simpleEscape? byte).isSome = true) (bound : Nat) (bytes : List UInt8)
    : skipStringBytes (bound + 1) (0x5C :: byte :: bytes) = skipStringBytes bound bytes := by
  rw [skipStringBytes_escape]
  simp only [skipEscape, simple]
  rfl

/-- The second half of a surrogate pair is taken whatever follows, and it is an escape by itself. -/
theorem readLowSurrogate_eq_ok {high : Nat} {bytes value rest : List UInt8}
    (done : readLowSurrogate high bytes = .ok (value, rest))
    : ∃ quad low,
        bytes = 0x5C :: 0x75 :: quad ++ rest
        ∧ (∀ other, readHexQuad (quad ++ other) = .ok (low, other))
        ∧ ∀ other, readLowSurrogate high (0x5C :: 0x75 :: quad ++ other) = .ok (value, other) := by
  unfold readLowSurrogate at done
  split at done
  case h_3 after =>
    obtain ⟨⟨low, behind⟩, quadRead, chosen⟩ := bind_eq_ok_iff.mp done
    obtain ⟨quad, rfl, _, again⟩ := readHexQuad_takes after low behind quadRead
    have anywhere (other : List UInt8) : readHexQuad (quad ++ other) = .ok (low, other) :=
      again other False.elim
    dsimp only at chosen
    split at chosen
    case isTrue isLow =>
      obtain ⟨rfl, rfl⟩ := Prod.mk.inj (Except.ok.inj chosen)
      refine ⟨quad, low, rfl, anywhere, fun other => ?_⟩
      rw [List.cons_append, List.cons_append, readLowSurrogate_pair]
      exact bind_eq_ok_iff.mpr ⟨(low, other), anywhere other, if_pos isLow⟩
    case isFalse => cases chosen
  all_goals cases done

/-- An escape is taken whatever follows, and passed as well. Witness: a surrogate pair is passed as
two escapes.
-/
theorem readEscape_eq_ok {bytes value rest : List UInt8}
    (done : readEscape bytes = .ok (value, rest))
    : ∃ taken,
        bytes = taken ++ rest
        ∧ (∀ other, readEscape (taken ++ other) = .ok (value, other))
        ∧ ∃ steps,
            steps ≤ taken.length
            ∧ ∀ bound other,
                skipStringBytes (bound + steps) (0x5C :: taken ++ other)
                = skipStringBytes bound other := by
  unfold readEscape at done
  split at done
  case h_1 => cases done
  case h_2 after =>
    obtain ⟨⟨unit, behind⟩, quadRead, chosen⟩ := bind_eq_ok_iff.mp done
    obtain ⟨quad, rfl, _, again⟩ := readHexQuad_takes after unit behind quadRead
    have anywhere (other : List UInt8) : readHexQuad (quad ++ other) = .ok (unit, other) :=
      again other False.elim
    dsimp only at chosen
    split at chosen
    case isTrue => cases chosen
    case isFalse notLow =>
      split at chosen
      case isTrue isHigh =>
        obtain ⟨second, low, rfl, secondAnywhere, secondAgain⟩ := readLowSurrogate_eq_ok chosen
        refine ⟨0x75 :: quad ++ 0x5C :: 0x75 :: second, by simp, fun other => ?_, 2, by simp; omega,
          fun bound other => ?_⟩
        · rw [List.append_assoc, List.cons_append, readEscape_unicode]
          refine bind_eq_ok_iff.mpr ⟨_, anywhere _, ?_⟩
          rw [if_neg notLow, if_pos isHigh]
          exact secondAgain other
        · have first := skipStringBytes_unicode (anywhere (0x5C :: 0x75 :: (second ++ other)))
          have next := skipStringBytes_unicode (secondAnywhere other) bound
          simpa [first (bound + 1)] using next
      case isFalse notHigh =>
        cases chosen
        refine ⟨0x75 :: quad, rfl, fun other => ?_, 1, by simp, fun bound other => ?_⟩
        · rw [List.cons_append, readEscape_unicode]
          refine bind_eq_ok_iff.mpr ⟨_, anywhere other, ?_⟩
          rw [if_neg notLow, if_neg notHigh]
        · exact skipStringBytes_unicode (anywhere other) bound
  case h_3 byte after notUnicode =>
    split at done
    case h_1 stands simple =>
      cases done
      refine ⟨[byte], rfl, fun other => ?_, 1, by simp, fun bound other => ?_⟩
      · rw [List.singleton_append, readEscape_simple notUnicode, simple]
      · exact skipStringBytes_simple notUnicode (by simp [simple]) bound other
    case h_2 => cases done

/-- The bytes of a string are taken whatever follows, under any bound that is no less than their
number, and they are passed as well. The induction is on the bound of the reading.
-/
theorem readStringBytes_eq_ok {bound : Nat} {before bytes content rest : List UInt8}
    (done : readStringBytes bound before bytes = .ok (content, rest))
    : ∃ taken,
        bytes = taken ++ rest
        ∧ taken ≠ []
        ∧ ∀ bound other,
            taken.length ≤ bound
            → readStringBytes bound before (taken ++ other) = .ok (content, other)
              ∧ skipStringBytes bound (taken ++ other) = .ok other := by
  induction bound generalizing before bytes with
  | zero => cases done
  | succ bound ih =>
      cases bytes with
      | nil => cases done
      | cons byte after =>
          rw [readStringBytes] at done
          split at done
          case isTrue quote =>
            cases done
            refine ⟨[byte], rfl, by simp, fun bound other enough => ?_⟩
            obtain ⟨bound, rfl⟩ := Nat.exists_eq_add_one.mpr enough
            exact ⟨if_pos quote, if_pos quote⟩
          case isFalse notQuote =>
            split at done
            case isTrue backslash =>
              subst backslash
              split at done
              case h_1 value behind escaped =>
                obtain ⟨escape, rfl, escapeAgain, steps, few, passed⟩ := readEscape_eq_ok escaped
                obtain ⟨taken, rfl, _, again⟩ := ih done
                refine ⟨0x5C :: escape ++ taken, by simp, by simp, fun bound other enough => ?_⟩
                have room : escape.length + taken.length + 1 ≤ bound := by simpa using enough
                constructor
                · obtain ⟨bound, rfl⟩ := Nat.exists_eq_add_one.mpr (by omega : 0 < bound)
                  rw [List.append_assoc, List.cons_append, readStringBytes, if_neg notQuote,
                    if_pos rfl, escapeAgain]
                  exact (again bound other (by omega)).1
                · have split : bound = (bound - steps) + steps := by omega
                  rw [split, List.append_assoc, passed]
                  exact (again (bound - steps) other (by omega)).2
              case h_2 => cases done
            case isFalse notBackslash =>
              split at done
              case isTrue => cases done
              case isFalse solid =>
                obtain ⟨taken, rfl, _, again⟩ := ih done
                refine ⟨byte :: taken, rfl, by simp, fun bound other enough => ?_⟩
                obtain ⟨bound, rfl⟩ := Nat.exists_eq_add_one.mpr (Nat.zero_lt_of_lt enough)
                obtain ⟨readAgain, passed⟩ := again bound other (Nat.le_of_succ_le_succ enough)
                constructor
                · rw [List.cons_append, readStringBytes, if_neg notQuote, if_neg notBackslash,
                    if_neg solid, readAgain]
                · rw [List.cons_append, skipStringBytes, if_neg notQuote, if_neg notBackslash,
                    if_neg solid, passed]

/-- What is read from a string. -/
theorem readString_eq_ok_iff {bytes rest : List UInt8} {text : String}
    : readString bytes = .ok (text, rest)
      ↔ ∃ content,
          readStringBytes (bytes.length + 1) [] bytes = .ok (content, rest)
          ∧ Text.Utf8.decode? content = some text := by
  unfold readString
  rw [bind_eq_ok_iff]
  constructor
  · rintro ⟨⟨content, behind⟩, contentRead, decoded⟩
    dsimp only at decoded
    split at decoded
    case h_1 found =>
      cases decoded
      exact ⟨content, contentRead, found⟩
    case h_2 => cases decoded
  · rintro ⟨content, contentRead, found⟩
    exact ⟨(content, rest), contentRead, by simp only [found]; rfl⟩

theorem readString_takes : Takes False readString := by
  intro bytes text rest done
  obtain ⟨content, contentRead, decoded⟩ := readString_eq_ok_iff.mp done
  obtain ⟨taken, split, nonempty, again⟩ := readStringBytes_eq_ok contentRead
  refine ⟨taken, split, nonempty, fun other _ => readString_eq_ok_iff.mpr ⟨content, ?_, decoded⟩⟩
  exact (again _ other (by simp; omega)).1

/-- A string that is read is passed as well. -/
theorem skipString_of_readString {bytes rest : List UInt8} {text : String}
    (done : readString bytes = .ok (text, rest))
    : skipString bytes = .ok rest := by
  obtain ⟨content, contentRead, _⟩ := readString_eq_ok_iff.mp done
  obtain ⟨taken, rfl, _, again⟩ := readStringBytes_eq_ok contentRead
  exact (again _ rest (by simp; omega)).2

end LogIntake.Json
