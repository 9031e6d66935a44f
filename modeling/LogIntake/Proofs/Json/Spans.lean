import LogIntake.Proofs.Json.Scalars

/-! How far a value reaches. Passing a value keeps its own stack of open brackets; here the same
extent is described by the nesting of values. Both agree, so the extent of a value depends on its
own bytes and on the byte behind it only.
-/

namespace LogIntake.Json

/-- Enters a bracket, or passes a value without brackets. -/
def startValue (bytes : List UInt8) : Except FormError (Option Bracket × List UInt8) :=
  match skipBlanks bytes with
  | [] => .error .endInValue
  | byte :: rest =>
      if byte = byteOf '[' then .ok (some .list, rest)
      else if byte = byteOf '\x7b' then .ok (some .object, rest)
      else (skipScalar (byte :: rest)).map fun rest => (none, rest)

/-- Goes on inside an open bracket, up to a further value or behind the closing bracket. The result
tells whether there is a further value.
-/
def enterValue (bracket : Bracket) (first : Bool) (bytes : List UInt8)
    : Except FormError (Bool × List UInt8) :=
  match skipBlanks bytes with
  | [] =>
      .error (match bracket with
        | .list => .endInList
        | .object => .endInObject)
  | byte :: rest =>
      if bracket.closes byte then .ok (false, rest)
      else if first then (skipToValue bracket (byte :: rest)).map fun rest => (true, rest)
      else if byte = byteOf ',' then (skipToValue bracket rest).map fun rest => (true, rest)
      else
        .error (match bracket with
          | .list => .expectedListCommaOrEnd
          | .object => .expectedObjectCommaOrEnd)

/-- Where passing stands inside a bracket, at its first value or later. -/
def Place.inside (first : Bool) : Place :=
  if first then .opened else .afterValue

theorem skipFrom_before (fuel : Nat) (brackets : List Bracket) (bytes : List UInt8)
    : skipFrom (fuel + 1) .beforeValue brackets bytes
      = startValue bytes >>= fun started =>
          match started.1 with
          | some bracket => skipFrom fuel .opened (bracket :: brackets) started.2
          | none => skipFrom fuel .afterValue brackets started.2 := by
  rw [skipFrom, startValue]
  cases skipBlanks bytes with
  | nil => rfl
  | cons byte rest =>
      dsimp only
      split_ifs
      · rfl
      · rfl
      · cases skipScalar (byte :: rest) <;> rfl

theorem skipFrom_inside (fuel : Nat) (first : Bool) (bracket : Bracket) (brackets : List Bracket)
    (bytes : List UInt8)
    : skipFrom (fuel + 1) (.inside first) (bracket :: brackets) bytes
      = enterValue bracket first bytes >>= fun entered =>
          if entered.1 then skipFrom fuel .beforeValue (bracket :: brackets) entered.2
          else skipFrom fuel .afterValue brackets entered.2 := by
  unfold enterValue
  cases first with
  | true =>
      change skipFrom (fuel + 1) .opened (bracket :: brackets) bytes = _
      cases skipped : skipBlanks bytes with
      | nil =>
          simp only [skipFrom, skipped]
          rfl
      | cons byte rest =>
          simp only [skipFrom, skipped, if_true]
          split_ifs
          · rfl
          · cases skipToValue bracket (byte :: rest) <;> rfl
  | false =>
      change skipFrom (fuel + 1) .afterValue (bracket :: brackets) bytes = _
      cases skipped : skipBlanks bytes with
      | nil =>
          simp only [skipFrom, skipped]
          rfl
      | cons byte rest =>
          simp only [skipFrom, skipped, reduceCtorEq, if_false]
          split_ifs
          · rfl
          · cases skipToValue bracket rest <;> rfl
          · rfl

-----------------------------------------------------------------------------------------
-- The extent of a value
-----------------------------------------------------------------------------------------

/-- What is passed: a value, or what is left of an open bracket, at its first value or later. -/
inductive Stretch where
  | value
  | inside (bracket : Bracket) (first : Bool)

/-- A stretch at the front of the first bytes reaches up to the second bytes. -/
inductive Spans : Stretch → List UInt8 → List UInt8 → Prop
  | scalar {bytes rest} (passed : startValue bytes = .ok (none, rest)) : Spans .value bytes rest
  | bracketed {bytes inner rest bracket} (opens : startValue bytes = .ok (some bracket, inner))
    (contents : Spans (.inside bracket true) inner rest)
    : Spans .value bytes rest
  | closed {bytes rest bracket first} (closes : enterValue bracket first bytes = .ok (false, rest))
    : Spans (.inside bracket first) bytes rest
  | further {bytes start middle rest bracket first}
    (enters : enterValue bracket first bytes = .ok (true, start))
    (value : Spans .value start middle)
    (remaining : Spans (.inside bracket false) middle rest)
    : Spans (.inside bracket first) bytes rest

/-- What is left inside of all open brackets, innermost first, reaches up to the second bytes. -/
def Unwinds : List Bracket → List UInt8 → List UInt8 → Prop
  | [], bytes, rest => bytes = rest
  | bracket :: brackets, bytes, rest =>
      ∃ middle, Spans (.inside bracket false) bytes middle ∧ Unwinds brackets middle rest

/-- Passing from a place inside open brackets passes what they still hold, by induction on the
bound.
-/
theorem unwinds_of_skipFrom {fuel : Nat} {brackets : List Bracket} {bytes rest : List UInt8}
    : (skipFrom fuel .beforeValue brackets bytes = .ok rest
        → ∃ middle, Spans .value bytes middle ∧ Unwinds brackets middle rest)
      ∧ (skipFrom fuel .afterValue brackets bytes = .ok rest → Unwinds brackets bytes rest)
      ∧ ∀ bracket first,
          skipFrom fuel (.inside first) (bracket :: brackets) bytes = .ok rest
          → ∃ middle,
              Spans (.inside bracket first) bytes middle ∧ Unwinds brackets middle rest := by
  induction fuel generalizing brackets bytes with
  | zero => exact ⟨nofun, nofun, nofun⟩
  | succ fuel ih =>
      have inside (brackets : List Bracket) (bracket : Bracket) (first : Bool)
          (done : skipFrom (fuel + 1) (.inside first) (bracket :: brackets) bytes = .ok rest)
          : ∃ middle,
              Spans (.inside bracket first) bytes middle ∧ Unwinds brackets middle rest := by
        rw [skipFrom_inside] at done
        obtain ⟨⟨more, start⟩, entered, done⟩ := bind_eq_ok_iff.mp done
        cases more with
        | false => exact ⟨start, .closed entered, ih.2.1 done⟩
        | true =>
            obtain ⟨middle, value, further, remaining, unwinds⟩ := ih.1 done
            exact ⟨further, .further entered value remaining, unwinds⟩
      refine ⟨fun done => ?_, fun done => ?_, inside brackets⟩
      · rw [skipFrom_before] at done
        obtain ⟨⟨opened, inner⟩, started, done⟩ := bind_eq_ok_iff.mp done
        cases opened with
        | none => exact ⟨inner, .scalar started, ih.2.1 done⟩
        | some bracket =>
            obtain ⟨middle, contents, unwinds⟩ := ih.2.2 bracket true done
            exact ⟨middle, .bracketed started contents, unwinds⟩
      · cases brackets with
        | nil =>
            cases done
            rfl
        | cons bracket brackets => exact inside brackets bracket false done

/-- A value that is passed reaches up to where passing ends. -/
theorem spans_of_skipValue {bytes rest : List UInt8}
    (done : skipValue bytes = .ok ((), rest))
    : Spans .value bytes rest := by
  obtain ⟨behind, skipped, returned⟩ := bind_eq_ok_iff.mp done
  cases returned
  obtain ⟨middle, value, unwinds⟩ := unwinds_of_skipFrom.1 (formal_eq_ok_iff.mp skipped)
  cases unwinds
  exact value

-----------------------------------------------------------------------------------------
-- What a stretch takes
-----------------------------------------------------------------------------------------

theorem skipMemberName_takes : Takes False (passing skipMemberName) := by
  intro bytes _ rest done
  rw [passing_eq_ok_iff, skipMemberName] at done
  split at done
  case h_1 => cases done
  case h_2 byte after skipped =>
    split at done
    case isTrue quote =>
      obtain ⟨blanks, rfl, again⟩ := skipBlanks_eq_cons skipped
      obtain ⟨taken, rfl, _, nameAgain⟩ :=
        (skipString_takes.andThen passColon_takes) after () rest (passing_eq_ok_iff.mpr done)
      refine ⟨blanks ++ byte :: taken, by simp, by simp, fun other follows => ?_⟩
      rw [passing_eq_ok_iff, skipMemberName, List.append_assoc, List.cons_append, again]
      exact (if_pos quote).trans (passing_eq_ok_iff.mp (nameAgain other follows))
    case isFalse => cases done

theorem skipToValue_takes (bracket : Bracket) : Takes True (passing (skipToValue bracket)) := by
  cases bracket with
  | object => exact skipMemberName_takes.weaken True
  | list =>
      intro bytes _ rest done
      cases passing_eq_ok_iff.mp done
      exact ⟨[], rfl, fun _ => trivial, fun other _ => passing_eq_ok_iff.mpr rfl⟩

/-- A value starts with at least one byte. -/
theorem startValue_eq_ok {bytes rest : List UInt8} {opened : Option Bracket}
    (started : startValue bytes = .ok (opened, rest))
    : ∃ taken,
        bytes = taken ++ rest
        ∧ taken ≠ []
        ∧ ∀ other,
            other.head? = rest.head? → startValue (taken ++ other) = .ok (opened, other) := by
  unfold startValue at started
  split at started
  case h_1 => cases started
  case h_2 byte after skipped =>
    obtain ⟨blanks, rfl, again⟩ := skipBlanks_eq_cons skipped
    split at started
    case isTrue isList =>
      cases started
      refine ⟨blanks ++ [byte], by simp, by simp, fun other _ => ?_⟩
      rw [startValue, List.append_assoc, List.singleton_append, again]
      exact if_pos isList
    case isFalse notList =>
      split at started
      case isTrue isObject =>
        cases started
        refine ⟨blanks ++ [byte], by simp, by simp, fun other _ => ?_⟩
        rw [startValue, List.append_assoc, List.singleton_append, again]
        exact (if_neg notList).trans (if_pos isObject)
      case isFalse notObject =>
        cases scalar : skipScalar (byte :: after) with
        | error e =>
            rw [scalar] at started
            cases started
        | ok behind =>
            rw [scalar] at started
            cases started
            obtain ⟨taken, rfl, _, scalarAgain⟩ :=
              skipScalar_takes byte after () rest (passing_eq_ok_iff.mpr scalar)
            refine ⟨blanks ++ byte :: taken, by simp, by simp, fun other follows => ?_⟩
            have passed := passing_eq_ok_iff.mp (scalarAgain other fun _ => follows)
            rw [startValue, List.append_assoc, List.cons_append, again]
            dsimp only
            rw [if_neg notList, if_neg notObject, passed]
            rfl

/-- Only the way to the first value may take no byte at all. -/
theorem enterValue_eq_ok {bracket : Bracket} {first more : Bool} {bytes rest : List UInt8}
    (entered : enterValue bracket first bytes = .ok (more, rest))
    : ∃ taken,
        bytes = taken ++ rest
        ∧ (taken = [] → first = true ∧ more = true)
        ∧ ∀ other,
            other.head? = rest.head?
            → enterValue bracket first (taken ++ other) = .ok (more, other) := by
  unfold enterValue at entered
  split at entered
  case h_1 => cases entered
  case h_2 byte after skipped =>
    obtain ⟨blanks, rfl, again⟩ := skipBlanks_eq_cons skipped
    split at entered
    case isTrue closes =>
      cases entered
      refine ⟨blanks ++ [byte], by simp, by simp, fun other _ => ?_⟩
      unfold enterValue
      rw [List.append_assoc, List.singleton_append, again]
      exact if_pos closes
    case isFalse open' =>
      split at entered
      case isTrue isFirst =>
        cases arrived : skipToValue bracket (byte :: after) with
        | error e =>
            rw [arrived] at entered
            cases entered
        | ok start =>
            rw [arrived] at entered
            cases entered
            obtain ⟨taken, split, _, arrivesAgain⟩ :=
              skipToValue_takes bracket (byte :: after) () rest (passing_eq_ok_iff.mpr arrived)
            refine ⟨blanks ++ taken, by rw [split, List.append_assoc], fun _ => ⟨isFirst, rfl⟩,
              fun other follows => ?_⟩
            have seen : (taken ++ other).head? = some byte := by
              rw [head?_append_congr fun _ => follows, ← split]
              rfl
            obtain ⟨tail, whole⟩ := List.head?_eq_some_iff.mp seen
            have passed := passing_eq_ok_iff.mp (arrivesAgain other fun _ => follows)
            unfold enterValue
            rw [List.append_assoc, whole, again]
            dsimp only
            rw [if_neg open', if_pos isFirst, ← whole, passed]
            rfl
      case isFalse later =>
        split at entered
        case isTrue comma =>
          cases arrived : skipToValue bracket after with
          | error e =>
              rw [arrived] at entered
              cases entered
          | ok start =>
              rw [arrived] at entered
              cases entered
              obtain ⟨taken, rfl, _, arrivesAgain⟩ :=
                skipToValue_takes bracket after () rest (passing_eq_ok_iff.mpr arrived)
              refine ⟨blanks ++ byte :: taken, by simp, by simp, fun other follows => ?_⟩
              have passed := passing_eq_ok_iff.mp (arrivesAgain other fun _ => follows)
              unfold enterValue
              rw [List.append_assoc, List.cons_append, again]
              dsimp only
              rw [if_neg open', if_neg later, if_pos comma, passed]
              rfl
        case isFalse => cases entered

/-- A stretch takes its own bytes in front of whatever follows, as long as the next byte stays the
same. The induction is on the stretch.
-/
theorem Spans.again {stretch : Stretch} {bytes rest : List UInt8}
    (spans : Spans stretch bytes rest)
    : ∃ taken,
        bytes = taken ++ rest
        ∧ taken ≠ []
        ∧ ∀ other, other.head? = rest.head? → Spans stretch (taken ++ other) other := by
  induction spans with
  | scalar passed =>
      obtain ⟨taken, split, nonempty, again⟩ := startValue_eq_ok passed
      exact ⟨taken, split, nonempty, fun other follows => .scalar (again other follows)⟩
  | bracketed opens _ ih =>
      obtain ⟨front, rfl, nonempty, opensAgain⟩ := startValue_eq_ok opens
      obtain ⟨taken, rfl, _, again⟩ := ih
      refine ⟨front ++ taken, by simp, by simp [nonempty], fun other follows => ?_⟩
      rw [List.append_assoc]
      exact .bracketed (opensAgain _ (head?_append_congr fun _ => follows)) (again other follows)
  | closed closes =>
      obtain ⟨taken, split, nonempty, again⟩ := enterValue_eq_ok closes
      refine ⟨taken, split, ?_, fun other follows => .closed (again other follows)⟩
      exact fun empty => Bool.false_ne_true (nonempty empty).2
  | further enters _ _ valueHyp remainingHyp =>
      obtain ⟨front, rfl, _, entersAgain⟩ := enterValue_eq_ok enters
      obtain ⟨value, rfl, nonempty, valueAgain⟩ := valueHyp
      obtain ⟨taken, rfl, _, again⟩ := remainingHyp
      refine ⟨front ++ (value ++ taken), by simp, by simp [nonempty], fun other follows => ?_⟩
      have behind : (taken ++ other).head? = (taken ++ _).head? :=
        head?_append_congr fun _ => follows
      rw [List.append_assoc, List.append_assoc]
      refine .further (entersAgain _ ?_) (valueAgain _ behind) (again other follows)
      exact head?_append_congr fun _ => behind

-----------------------------------------------------------------------------------------
-- The steps of passing
-----------------------------------------------------------------------------------------

/-- Where passing stands at the front of a stretch. -/
def Stretch.place : Stretch → Place
  | .value => .beforeValue
  | .inside _ first => .inside first

/-- The brackets that a stretch closes. -/
def Stretch.brackets : Stretch → List Bracket
  | .value => []
  | .inside bracket _ => [bracket]

/-- The steps of a stretch that use up no byte: the one from a bracket to its first value. -/
def Stretch.freeSteps : Stretch → Nat
  | .inside _ true => 1
  | _ => 0

/-- Passing a stretch takes at most two steps for each byte, by induction on the stretch. -/
theorem Spans.skipFrom {stretch : Stretch} {bytes rest : List UInt8}
    (spans : Spans stretch bytes rest)
    : ∃ steps,
        steps + 2 * rest.length ≤ 2 * bytes.length + stretch.freeSteps
        ∧ ∀ fuel brackets,
            Json.skipFrom (fuel + steps) stretch.place (stretch.brackets ++ brackets) bytes
            = Json.skipFrom fuel .afterValue brackets rest := by
  induction spans with
  | @scalar bytes rest passed =>
      obtain ⟨taken, rfl, nonempty, _⟩ := startValue_eq_ok passed
      have used : 0 < taken.length := List.length_pos_iff.mpr nonempty
      refine ⟨1, by simp; omega, fun fuel brackets => ?_⟩
      change Json.skipFrom (fuel + 1) .beforeValue brackets _ = _
      rw [skipFrom_before, passed]
      rfl
  | @bracketed bytes inner rest bracket opens _ ih =>
      obtain ⟨taken, rfl, nonempty, _⟩ := startValue_eq_ok opens
      have used : 0 < taken.length := List.length_pos_iff.mpr nonempty
      obtain ⟨steps, few, passes⟩ := ih
      refine ⟨steps + 1, ?_, fun fuel brackets => ?_⟩
      · simp only [Stretch.freeSteps, List.length_append] at few ⊢
        omega
      · change Json.skipFrom (fuel + steps + 1) .beforeValue brackets _ = _
        rw [skipFrom_before, opens]
        exact passes fuel brackets
  | @closed bytes rest bracket first closes =>
      obtain ⟨taken, rfl, nonempty, _⟩ := enterValue_eq_ok closes
      have used : 0 < taken.length :=
        List.length_pos_iff.mpr fun empty => Bool.false_ne_true (nonempty empty).2
      refine ⟨1, by simp; omega, fun fuel brackets => ?_⟩
      change Json.skipFrom (fuel + 1) (.inside first) (bracket :: brackets) _ = _
      rw [skipFrom_inside, closes]
      rfl
  | @further bytes start middle rest bracket first enters _ _ valueHyp remainingHyp =>
      obtain ⟨taken, rfl, nonempty, _⟩ := enterValue_eq_ok enters
      have used : 1 ≤ taken.length + (Stretch.inside bracket first).freeSteps := by
        cases first with
        | true => exact Nat.le_add_left ..
        | false =>
            have isSome : taken ≠ [] := fun empty => Bool.false_ne_true (nonempty empty).1
            exact Nat.le_add_right_of_le (List.length_pos_iff.mpr isSome)
      obtain ⟨valueSteps, valueFew, valuePasses⟩ := valueHyp
      obtain ⟨steps, few, passes⟩ := remainingHyp
      refine ⟨steps + valueSteps + 1, ?_, fun fuel brackets => ?_⟩
      · have noFree : Stretch.value.freeSteps + (Stretch.inside bracket false).freeSteps = 0 := rfl
        simp only [List.length_append] at valueFew few used ⊢
        omega
      · change Json.skipFrom (fuel + (steps + valueSteps) + 1) (.inside first)
          (bracket :: brackets) _ = _
        rw [skipFrom_inside, enters, ← Nat.add_assoc]
        exact (valuePasses (fuel + steps) (bracket :: brackets)).trans (passes fuel brackets)

/-- Passing a value succeeds exactly with its extent. -/
theorem skipValue_eq_ok_iff {bytes rest : List UInt8}
    : skipValue bytes = .ok ((), rest) ↔ Spans .value bytes rest := by
  refine ⟨spans_of_skipValue, fun spans => ?_⟩
  obtain ⟨steps, few, passes⟩ := spans.skipFrom
  simp only [Stretch.freeSteps] at few
  have enough : 2 * bytes.length + 2 = (2 * bytes.length + 1 - steps + 1) + steps := by omega
  refine bind_eq_ok_iff.mpr ⟨rest, formal_eq_ok_iff.mpr ?_, rfl⟩
  rw [enough]
  exact passes _ []

theorem skipValue_takes : Takes True skipValue := by
  intro bytes _ rest done
  obtain ⟨taken, split, _, again⟩ := (skipValue_eq_ok_iff.mp done).again
  refine ⟨taken, split, fun _ => trivial, fun other follows => ?_⟩
  exact skipValue_eq_ok_iff.mpr (again other (follows trivial))

end LogIntake.Json
