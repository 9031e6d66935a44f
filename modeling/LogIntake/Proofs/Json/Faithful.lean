import LogIntake.Json.Record
import LogIntake.Proofs.Json.Spans

/-! Readers of values of a known kind. Such a reader takes exactly the extent of a value, and it
looks at nothing behind it, since texts, objects and lists end with a byte of their own.
-/

namespace LogIntake.Json

variable {α β σ : Type}

/-- Reads a value and changes it. -/
def Reader.map (read : Reader α) (change : α → β) : Reader β := fun bytes => do
  let (value, bytes) ← read bytes
  return (change value, bytes)

/-- What the reader reads is a stretch in its whole extent. -/
structure Faithful (ahead : Prop) (stretch : Stretch) (read : Reader α) : Prop where
  takes : Takes ahead read
  spans : ∀ {bytes value rest}, read bytes = .ok (value, rest) → Spans stretch bytes rest

namespace Faithful

theorem weaken {stretch : Stretch} {read : Reader α} (faithful : Faithful False stretch read)
    (ahead : Prop)
    : Faithful ahead stretch read :=
  ⟨faithful.takes.weaken ahead, faithful.spans⟩

/-- What is made of the value afterwards changes nothing about its extent. -/
theorem finish {ahead : Prop} {stretch : Stretch} {read : Reader α}
    (faithful : Faithful ahead stretch read) (finish : α → Except DecodeError β)
    : Faithful ahead stretch fun bytes => do
        let (value, bytes) ← read bytes
        let result ← finish value
        return (result, bytes) where
  takes := faithful.takes.finish finish
  spans := by
    intro bytes result rest done
    obtain ⟨⟨value, behind⟩, valueRead, finishing⟩ := bind_eq_ok_iff.mp done
    obtain ⟨_, _, returned⟩ := bind_eq_ok_iff.mp finishing
    cases returned
    exact faithful.spans valueRead

theorem map {ahead : Prop} {stretch : Stretch} {read : Reader α}
    (faithful : Faithful ahead stretch read) (change : α → β)
    : Faithful ahead stretch (read.map change) :=
  faithful.finish fun value => .ok (change value)

end Faithful

theorem skipValue_faithful : Faithful True .value skipValue :=
  ⟨skipValue_takes, skipValue_eq_ok_iff.mp⟩

-----------------------------------------------------------------------------------------
-- Texts
-----------------------------------------------------------------------------------------

/-- A value of the wrong kind is no success. -/
theorem mismatch_ne_ok {expected : String} {bytes rest : List UInt8} {value : α}
    : mismatch expected bytes ≠ .ok (value, rest) := by
  intro done
  unfold mismatch at done
  split at done
  case h_1 => cases done
  case h_2 byte bytes =>
    split_ifs at done
    split at done
    all_goals cases done

/-- A text stands in quotes behind blanks. -/
theorem readTextAs_eq_ok_iff {expected : String} {bytes rest : List UInt8} {text : String}
    : readTextAs expected bytes = .ok (text, rest)
      ↔ ∃ quoted,
          skipBlanks bytes = byteOf '"' :: quoted ∧ readString quoted = .ok (text, rest) := by
  constructor
  · intro done
    unfold readTextAs at done
    split at done
    case h_1 byte quoted skipped =>
      split at done
      case isTrue quote => exact ⟨quoted, quote ▸ skipped, formal_eq_ok_iff.mp done⟩
      case isFalse => exact (mismatch_ne_ok done).elim
    case h_2 => cases done
  · rintro ⟨quoted, skipped, named⟩
    unfold readTextAs
    rw [skipped]
    exact (if_pos rfl).trans (formal_eq_ok_iff.mpr named)

theorem readTextAs_faithful (expected : String)
    : Faithful False .value (readTextAs expected) where
  takes := by
    intro bytes text rest done
    obtain ⟨quoted, skipped, named⟩ := readTextAs_eq_ok_iff.mp done
    obtain ⟨blanks, rfl, blanksAgain⟩ := skipBlanks_eq_cons skipped
    obtain ⟨taken, rfl, _, again⟩ := readString_takes quoted text rest named
    refine ⟨blanks ++ byteOf '"' :: taken, by simp, by simp, fun other follows => ?_⟩
    refine readTextAs_eq_ok_iff.mpr ⟨taken ++ other, ?_, again other follows⟩
    rw [List.append_assoc, List.cons_append, blanksAgain]
  spans := by
    intro bytes text rest done
    obtain ⟨quoted, skipped, named⟩ := readTextAs_eq_ok_iff.mp done
    refine .scalar ?_
    have passed : skipScalar (byteOf '"' :: quoted) = .ok rest := skipString_of_readString named
    rw [startValue, skipped]
    exact congrArg (Except.map fun rest => (none, rest)) passed

-----------------------------------------------------------------------------------------
-- Names of members
-----------------------------------------------------------------------------------------

/-- Reads the name of the next member of an object, or passes the closing brace. -/
def startMember (first : Bool) (bytes : List UInt8)
    : Except FormError (Option String × List UInt8) := do
  let (more, bytes) ← nextMember first bytes
  if more then
    let (name, bytes) ← readString (bytes.drop 1)
    return (some name, bytes)
  else return (none, bytes.drop 1)

theorem foldMembers_succ (step : σ → String → Reader σ) (bound : Nat) (first : Bool) (state : σ)
    (bytes : List UInt8)
    : foldMembers step (bound + 1) first state bytes
      = formal (startMember first bytes) >>= fun started =>
          match started.1 with
          | some name =>
              step state name started.2 >>= fun stepped =>
                foldMembers step bound false stepped.1 stepped.2
          | none => .ok (state, started.2) := by
  rw [foldMembers, startMember]
  cases nextMember first bytes with
  | error e => rfl
  | ok next =>
      obtain ⟨more, bytes⟩ := next
      cases more with
      | false => rfl
      | true =>
          change (formal (readString (bytes.drop 1)) >>= fun named =>
              step state named.1 named.2 >>= fun stepped =>
                foldMembers step bound false stepped.1 stepped.2)
            = formal (readString (bytes.drop 1) >>= fun named => .ok (some named.1, named.2)) >>= _
          cases readString (bytes.drop 1) <;> rfl

/-- Where the name of a member starts, behind its quote: the first one anywhere behind blanks, and
a later one behind a comma.
-/
def AtName (first : Bool) (bytes name : List UInt8) : Prop :=
  if first then skipBlanks bytes = byteOf '"' :: name
  else ∃ behind, skipBlanks bytes = byteOf ',' :: behind ∧ skipBlanks behind = byteOf '"' :: name

theorem nextMember_eq_false_iff {first : Bool} {bytes after : List UInt8}
    : nextMember first bytes = .ok (false, after)
      ↔ ∃ rest, after = byteOf '\x7d' :: rest ∧ skipBlanks bytes = byteOf '\x7d' :: rest := by
  constructor
  · intro next
    unfold nextMember at next
    split at next
    case h_1 => cases next
    case h_2 byte rest skipped =>
      split at next
      case isTrue brace =>
        cases next
        exact ⟨rest, by rw [brace], by rw [skipped, brace]⟩
      case isFalse =>
        split at next
        case isTrue =>
          split at next
          all_goals cases next
        case isFalse =>
          split at next
          case isTrue =>
            split at next
            case h_1 => cases next
            case h_2 =>
              split_ifs at next
              cases next
          case isFalse => cases next
  · rintro ⟨rest, rfl, skipped⟩
    unfold nextMember
    rw [skipped]
    exact if_pos rfl

theorem nextMember_eq_true_iff {first : Bool} {bytes after : List UInt8}
    : nextMember first bytes = .ok (true, after)
      ↔ ∃ name, after = byteOf '"' :: name ∧ AtName first bytes name := by
  constructor
  · intro next
    unfold nextMember at next
    split at next
    case h_1 => cases next
    case h_2 byte rest skipped =>
      split at next
      case isTrue => cases next
      case isFalse =>
        cases first with
        | true =>
            rw [if_pos rfl] at next
            split at next
            case isTrue quote =>
              cases next
              exact ⟨rest, by rw [quote], by rw [AtName, if_pos rfl, skipped, quote]⟩
            case isFalse => cases next
        | false =>
            rw [if_neg Bool.false_ne_true] at next
            split at next
            case isTrue comma =>
              split at next
              case h_1 => cases next
              case h_2 other behind skippedAgain =>
                split at next
                case isTrue quote =>
                  cases next
                  refine ⟨behind, by rw [quote], rest, ?_, ?_⟩
                  · rw [skipped, comma]
                  · rw [skippedAgain, quote]
                case isFalse =>
                  split at next
                  all_goals cases next
            case isFalse => cases next
  · rintro ⟨name, rfl, named⟩
    unfold nextMember
    cases first with
    | true =>
        have skipped : skipBlanks bytes = byteOf '"' :: name := named
        rw [skipped]
        rfl
    | false =>
        obtain ⟨behind, skipped, skippedAgain⟩ := named
        rw [skipped]
        dsimp only
        rw [if_neg (by decide), if_neg Bool.false_ne_true, if_pos rfl, skippedAgain]
        rfl

/-- An object is at its end exactly at a brace. -/
theorem startMember_eq_none_iff {first : Bool} {bytes rest : List UInt8}
    : startMember first bytes = .ok (none, rest)
      ↔ skipBlanks bytes = byteOf '\x7d' :: rest := by
  unfold startMember
  rw [bind_eq_ok_iff]
  constructor
  · rintro ⟨⟨more, after⟩, next, done⟩
    cases more with
    | false =>
        obtain ⟨behind, rfl, skipped⟩ := nextMember_eq_false_iff.mp next
        cases done
        exact skipped
    | true =>
        obtain ⟨_, _, returned⟩ := bind_eq_ok_iff.mp done
        cases returned
  · intro skipped
    exact ⟨(false, _), nextMember_eq_false_iff.mpr ⟨rest, rfl, skipped⟩, rfl⟩

/-- A member starts exactly with its name. -/
theorem startMember_eq_some_iff {first : Bool} {bytes rest : List UInt8} {name : String}
    : startMember first bytes = .ok (some name, rest)
      ↔ ∃ quoted, AtName first bytes quoted ∧ readString quoted = .ok (name, rest) := by
  unfold startMember
  rw [bind_eq_ok_iff]
  constructor
  · rintro ⟨⟨more, after⟩, next, done⟩
    cases more with
    | false => cases done
    | true =>
        obtain ⟨quoted, rfl, atName⟩ := nextMember_eq_true_iff.mp next
        obtain ⟨⟨text, behind⟩, named, returned⟩ := bind_eq_ok_iff.mp done
        cases returned
        exact ⟨quoted, atName, named⟩
  · rintro ⟨quoted, atName, named⟩
    refine ⟨(true, _), nextMember_eq_true_iff.mpr ⟨quoted, rfl, atName⟩, ?_⟩
    exact bind_eq_ok_iff.mpr ⟨(name, rest), named, rfl⟩

/-- The way to a name is the same whatever the name is. -/
theorem AtName.again {first : Bool} {bytes name : List UInt8} (atName : AtName first bytes name)
    : ∃ front, bytes = front ++ name ∧ ∀ other, AtName first (front ++ other) other := by
  cases first with
  | true =>
      obtain ⟨blanks, rfl, again⟩ := skipBlanks_eq_cons atName
      refine ⟨blanks ++ [byteOf '"'], by simp, fun other => ?_⟩
      rw [List.append_assoc, List.singleton_append]
      exact again other
  | false =>
      obtain ⟨behind, skipped, skippedAgain⟩ := atName
      obtain ⟨blanks, rfl, again⟩ := skipBlanks_eq_cons skipped
      obtain ⟨blanksBehind, rfl, againBehind⟩ := skipBlanks_eq_cons skippedAgain
      refine ⟨blanks ++ byteOf ',' :: blanksBehind ++ [byteOf '"'], by simp, fun other => ?_⟩
      refine ⟨blanksBehind ++ byteOf '"' :: other, ?_, againBehind other⟩
      have split : blanks ++ byteOf ',' :: blanksBehind ++ [byteOf '"'] ++ other
          = blanks ++ byteOf ',' :: (blanksBehind ++ byteOf '"' :: other) := by simp
      rw [split, again]

theorem startMember_takes (first : Bool) : Takes False (startMember first) := by
  intro bytes name? rest done
  cases name? with
  | none =>
      have skipped := startMember_eq_none_iff.mp done
      obtain ⟨blanks, rfl, again⟩ := skipBlanks_eq_cons skipped
      refine ⟨blanks ++ [byteOf '\x7d'], by simp, by simp, fun other _ => ?_⟩
      rw [List.append_assoc, List.singleton_append]
      exact startMember_eq_none_iff.mpr (again other)
  | some name =>
      obtain ⟨quoted, atName, named⟩ := startMember_eq_some_iff.mp done
      obtain ⟨front, rfl, nameAgain⟩ := atName.again
      obtain ⟨taken, rfl, nonempty, again⟩ := readString_takes quoted name rest named
      refine ⟨front ++ taken, by simp, fun empty => nonempty (List.append_eq_nil_iff.mp empty).2,
        fun other follows => ?_⟩
      rw [List.append_assoc]
      exact startMember_eq_some_iff.mpr ⟨taken ++ other, nameAgain _, again other follows⟩

/-- Where reading ends an object, passing does so. -/
theorem enterValue_of_startMember_none {first : Bool} {bytes rest : List UInt8}
    (ended : startMember first bytes = .ok (none, rest))
    : enterValue .object first bytes = .ok (false, rest) := by
  unfold enterValue
  rw [startMember_eq_none_iff.mp ended]
  rfl

/-- Where reading comes to the value of a member, passing does so. -/
theorem enterValue_of_startMember_some {first : Bool} {bytes colon start : List UInt8}
    {name : String} (named : startMember first bytes = .ok (some name, colon))
    (passed : passColon colon = .ok start)
    : enterValue .object first bytes = .ok (true, start) := by
  obtain ⟨quoted, atName, named⟩ := startMember_eq_some_iff.mp named
  have namePassed {bytes : List UInt8} (skipped : skipBlanks bytes = byteOf '"' :: quoted)
      : skipMemberName bytes = .ok start := by
    unfold skipMemberName
    rw [skipped]
    exact bind_eq_ok_iff.mpr ⟨colon, skipString_of_readString named, passed⟩
  unfold enterValue
  cases first with
  | true =>
      have skipped : skipBlanks bytes = byteOf '"' :: quoted := atName
      rw [skipped]
      have skippedAgain : skipBlanks (byteOf '"' :: quoted) = byteOf '"' :: quoted := rfl
      exact congrArg (Except.map fun rest => (true, rest)) (namePassed skippedAgain)
  | false =>
      obtain ⟨behind, skipped, skippedAgain⟩ := atName
      rw [skipped]
      exact congrArg (Except.map fun rest => (true, rest)) (namePassed skippedAgain)

-----------------------------------------------------------------------------------------
-- Members
-----------------------------------------------------------------------------------------

/-- A reader of members, from their colon on, reads each value in its whole extent. -/
structure FaithfulMember (read : Reader α) : Prop where
  takes : Takes True read
  spans
    : ∀ {bytes value rest},
        read bytes = .ok (value, rest)
        → ∃ start, passColon bytes = .ok start ∧ Spans .value start rest

theorem memberValue_eq_ok_iff {read : Reader α} {bytes rest : List UInt8} {value : α}
    : memberValue read bytes = .ok (value, rest)
      ↔ ∃ start, passColon bytes = .ok start ∧ read start = .ok (value, rest) := by
  unfold memberValue
  rw [bind_eq_ok_iff]
  constructor
  · rintro ⟨start, passed, done⟩
    exact ⟨start, formal_eq_ok_iff.mp passed, done⟩
  · rintro ⟨start, passed, done⟩
    exact ⟨start, formal_eq_ok_iff.mpr passed, done⟩

theorem Faithful.member {read : Reader α} (faithful : Faithful True .value read)
    : FaithfulMember (memberValue read) where
  takes := by
    intro bytes value rest done
    obtain ⟨start, passed, valueRead⟩ := memberValue_eq_ok_iff.mp done
    obtain ⟨colon, rfl, _, colonAgain⟩ :=
      passColon_takes bytes () start (passing_eq_ok_iff.mpr passed)
    obtain ⟨taken, rfl, _, again⟩ := faithful.takes start value rest valueRead
    refine ⟨colon ++ taken, by simp, fun _ => trivial, fun other follows => ?_⟩
    refine memberValue_eq_ok_iff.mpr ⟨taken ++ other, ?_, again other follows⟩
    rw [List.append_assoc]
    exact passing_eq_ok_iff.mp (colonAgain _ False.elim)
  spans := by
    intro bytes value rest done
    obtain ⟨start, passed, valueRead⟩ := memberValue_eq_ok_iff.mp done
    exact ⟨start, passed, faithful.spans valueRead⟩

theorem FaithfulMember.map {read : Reader α} (faithful : FaithfulMember read) (change : α → β)
    : FaithfulMember (Reader.map read change) where
  takes := faithful.takes.finish fun value => .ok (change value)
  spans := by
    intro bytes result rest done
    obtain ⟨⟨value, behind⟩, valueRead, returned⟩ := bind_eq_ok_iff.mp done
    cases returned
    exact faithful.spans valueRead

/-- Members are read up to the closing brace whatever follows it, under any bound that is no less
than the number of their bytes. The induction is on the bound of the reading.
-/
theorem foldMembers_eq_ok {step : σ → String → Reader σ}
    (faithful : ∀ state name, FaithfulMember (step state name)) {bound : Nat} {first : Bool}
    {state final : σ} {bytes rest : List UInt8}
    (done : foldMembers step bound first state bytes = .ok (final, rest))
    : Spans (.inside .object first) bytes rest
      ∧ ∃ taken,
          bytes = taken ++ rest
          ∧ taken ≠ []
          ∧ ∀ bound other,
              taken.length ≤ bound
              → foldMembers step bound first state (taken ++ other) = .ok (final, other) := by
  induction bound generalizing first state bytes with
  | zero => cases done
  | succ bound ih =>
      rw [foldMembers_succ] at done
      obtain ⟨⟨name?, behind⟩, started, done⟩ := bind_eq_ok_iff.mp done
      have named := formal_eq_ok_iff.mp started
      obtain ⟨front, rfl, nonempty, frontAgain⟩ := startMember_takes first bytes name? behind named
      have used : 0 < front.length := List.length_pos_iff.mpr nonempty
      have frontFormal (other : List UInt8)
          : formal (startMember first (front ++ other)) = .ok (name?, other) :=
        formal_eq_ok_iff.mpr (frontAgain other False.elim)
      cases name? with
      | none =>
          cases done
          refine ⟨.closed (enterValue_of_startMember_none named), front, rfl, nonempty, ?_⟩
          intro bound other enough
          obtain ⟨bound, rfl⟩ := Nat.exists_eq_add_one.mpr (by omega : 0 < bound)
          rw [foldMembers_succ]
          exact bind_eq_ok_iff.mpr ⟨_, frontFormal other, rfl⟩
      | some name =>
          obtain ⟨⟨next, middle⟩, stepped, done⟩ := bind_eq_ok_iff.mp done
          obtain ⟨remaining, taken, rfl, _, again⟩ := ih done
          obtain ⟨start, passed, value⟩ := (faithful state name).spans stepped
          obtain ⟨member, rfl, _, memberAgain⟩ := (faithful state name).takes _ _ _ stepped
          refine ⟨.further (enterValue_of_startMember_some named passed) value remaining,
            front ++ (member ++ taken), by simp,
            fun empty => nonempty (List.append_eq_nil_iff.mp empty).1, fun bound other enough => ?_⟩
          simp only [List.length_append] at enough
          obtain ⟨bound, rfl⟩ := Nat.exists_eq_add_one.mpr (by omega : 0 < bound)
          have follows : (taken ++ other).head? = (taken ++ rest).head? :=
            head?_append_congr fun empty => by contradiction
          rw [foldMembers_succ, List.append_assoc, List.append_assoc]
          refine bind_eq_ok_iff.mpr ⟨_, frontFormal _, ?_⟩
          refine bind_eq_ok_iff.mpr ⟨_, memberAgain _ fun _ => follows, ?_⟩
          exact again bound other (by omega)

theorem readMembers_faithful {step : σ → String → Reader σ}
    (faithful : ∀ state name, FaithfulMember (step state name)) (init : σ)
    : Faithful False (.inside .object true) (readMembers init step) where
  takes := by
    intro bytes final rest done
    obtain ⟨_, taken, rfl, nonempty, again⟩ := foldMembers_eq_ok faithful done
    exact ⟨taken, rfl, nonempty, fun other _ => again _ other (by simp; omega)⟩
  spans done := (foldMembers_eq_ok faithful done).1

-----------------------------------------------------------------------------------------
-- Brackets
-----------------------------------------------------------------------------------------

/-- The byte that opens a bracket. -/
def Bracket.opening : Bracket → UInt8
  | .list => byteOf '['
  | .object => byteOf '\x7b'

theorem startValue_of_opening {bracket : Bracket} {bytes inner : List UInt8}
    (skipped : skipBlanks bytes = bracket.opening :: inner)
    : startValue bytes = .ok (some bracket, inner) := by
  unfold startValue
  rw [skipped]
  cases bracket <;> rfl

/-- A reader that enters a bracket and reads faithfully inside of it is faithful. -/
theorem Faithful.of_opening (inside : Bracket → Reader α) {read : Reader α}
    (reads
      : ∀ {bytes value rest},
          read bytes = .ok (value, rest)
          ↔ ∃ bracket inner,
              skipBlanks bytes = bracket.opening :: inner
              ∧ inside bracket inner = .ok (value, rest))
    (faithful : ∀ bracket, Faithful False (.inside bracket true) (inside bracket))
    : Faithful False .value read where
  takes := by
    intro bytes value rest done
    obtain ⟨bracket, inner, skipped, insideRead⟩ := reads.mp done
    obtain ⟨blanks, rfl, blanksAgain⟩ := skipBlanks_eq_cons skipped
    obtain ⟨taken, rfl, _, again⟩ := (faithful bracket).takes inner value rest insideRead
    refine ⟨blanks ++ bracket.opening :: taken, by simp, by simp, fun other follows => ?_⟩
    refine reads.mpr ⟨bracket, taken ++ other, ?_, again other follows⟩
    rw [List.append_assoc, List.cons_append, blanksAgain]
  spans := by
    intro bytes value rest done
    obtain ⟨bracket, inner, skipped, insideRead⟩ := reads.mp done
    exact .bracketed (startValue_of_opening skipped) ((faithful bracket).spans insideRead)

/-- A reader that never succeeds is faithful. -/
theorem Faithful.of_failure {ahead : Prop} {stretch : Stretch} {read : Reader α}
    (fails : ∀ {bytes value rest}, read bytes ≠ .ok (value, rest))
    : Faithful ahead stretch read :=
  ⟨fun _ _ _ done => (fails done).elim, fun done => (fails done).elim⟩

/-- Reads an object by a reader for what stands behind its opening brace. -/
def readBraced (inside : Reader α) : Reader α := fun bytes =>
  match skipBlanks bytes with
  | byte :: rest =>
      if byte = byteOf '\x7b' then inside rest else mismatch "a map" (byte :: rest)
  | [] => .error (.form .endInValue)

theorem readBraced_eq_ok_iff {inside : Reader α} {bytes rest : List UInt8} {value : α}
    : readBraced inside bytes = .ok (value, rest)
      ↔ ∃ inner,
          skipBlanks bytes = byteOf '\x7b' :: inner ∧ inside inner = .ok (value, rest) := by
  constructor
  · intro done
    unfold readBraced at done
    split at done
    case h_1 byte inner skipped =>
      split at done
      case isTrue brace =>
        subst brace
        exact ⟨inner, skipped, done⟩
      case isFalse => exact (mismatch_ne_ok done).elim
    case h_2 => cases done
  · rintro ⟨inner, skipped, insideRead⟩
    unfold readBraced
    rw [skipped]
    exact (if_pos rfl).trans insideRead

theorem readBraced_faithful {inside : Reader α}
    (faithful : Faithful False (.inside .object true) inside)
    : Faithful False .value (readBraced inside) := by
  let within : Bracket → Reader α
    | .object => inside
    | .list => mismatch "a map"
  refine .of_opening within (fun {bytes value rest} => ?_) fun bracket => ?_
  · rw [readBraced_eq_ok_iff]
    constructor
    · rintro ⟨inner, skipped, insideRead⟩
      exact ⟨.object, inner, skipped, insideRead⟩
    · rintro ⟨bracket, inner, skipped, insideRead⟩
      cases bracket with
      | object => exact ⟨inner, skipped, insideRead⟩
      | list => exact (mismatch_ne_ok insideRead).elim
  · cases bracket with
    | object => exact faithful
    | list => exact .of_failure mismatch_ne_ok

/-- A member of a map of texts. -/
def readEntry (map : NameMap) (name : String) : Reader NameMap := fun bytes => do
  let (value, bytes) ← memberValue readText bytes
  return (map.insert name value, bytes)

theorem readTextMap_eq : readTextMap = readBraced (readMembers .empty readEntry) := by
  rfl

theorem readTextMap_faithful : Faithful False .value readTextMap := by
  rw [readTextMap_eq]
  refine readBraced_faithful (readMembers_faithful (fun map name => ?_) _)
  exact ((readTextAs_faithful "a string").weaken True).member.map (map.insert name)

end LogIntake.Json
