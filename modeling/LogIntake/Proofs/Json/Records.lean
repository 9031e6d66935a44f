import LogIntake.Proofs.Json.Faithful

/-! Reading records of named fields, in either of their two forms. If each field reads its value in
its whole extent, so does the record: what it takes is one object or one list.
-/

namespace LogIntake.Json

variable {σ α : Type}

-----------------------------------------------------------------------------------------
-- Elements
-----------------------------------------------------------------------------------------

/-- Where the next element of a list starts: the first one behind blanks, and a later one behind a
comma. No element starts with the closing bracket.
-/
def AtElement (first : Bool) (bytes element : List UInt8) : Prop :=
  (if first then skipBlanks bytes = element
    else ∃ behind, skipBlanks bytes = byteOf ',' :: behind ∧ skipBlanks behind = element)
  ∧ ∃ byte rest, element = byte :: rest ∧ byte ≠ byteOf ']'

theorem nextElement_eq_false_iff {first : Bool} {bytes after : List UInt8}
    : nextElement first bytes = .ok (false, after)
      ↔ ∃ rest, after = byteOf ']' :: rest ∧ skipBlanks bytes = byteOf ']' :: rest := by
  constructor
  · intro next
    unfold nextElement at next
    split at next
    case h_1 => cases next
    case h_2 byte rest skipped =>
      split at next
      case isTrue closes =>
        cases next
        exact ⟨rest, by rw [closes], by rw [skipped, closes]⟩
      case isFalse =>
        split at next
        case isTrue => cases next
        case isFalse =>
          split at next
          case isTrue =>
            split at next
            case h_1 => cases next
            case h_2 =>
              split_ifs at next
              cases next
          case isFalse => cases next
  · rintro ⟨rest, rfl, skipped⟩
    unfold nextElement
    rw [skipped]
    exact if_pos rfl

theorem nextElement_eq_true_iff {first : Bool} {bytes after : List UInt8}
    : nextElement first bytes = .ok (true, after) ↔ AtElement first bytes after := by
  constructor
  · intro next
    unfold nextElement at next
    split at next
    case h_1 => cases next
    case h_2 byte rest skipped =>
      split at next
      case isTrue => cases next
      case isFalse further =>
        cases first with
        | true =>
            cases next
            exact ⟨skipped, byte, rest, rfl, further⟩
        | false =>
            rw [if_neg Bool.false_ne_true] at next
            split at next
            case isTrue comma =>
              split at next
              case h_1 => cases next
              case h_2 other behind skippedAgain =>
                split at next
                case isTrue => cases next
                case isFalse openBehind =>
                  cases next
                  refine ⟨⟨rest, ?_, skippedAgain⟩, other, behind, rfl, openBehind⟩
                  rw [skipped, comma]
            case isFalse => cases next
  · rintro ⟨atElement, byte, rest, rfl, further⟩
    unfold nextElement
    cases first with
    | true =>
        have skipped : skipBlanks bytes = byte :: rest := atElement
        rw [skipped]
        exact if_neg further
    | false =>
        obtain ⟨behind, skipped, skippedAgain⟩ := atElement
        rw [skipped]
        dsimp only
        rw [if_neg (by decide), if_neg Bool.false_ne_true, if_pos rfl, skippedAgain]
        exact if_neg further

/-- The way to an element depends on no more than the first byte of the element. -/
theorem AtElement.again {first : Bool} {bytes element : List UInt8}
    (atElement : AtElement first bytes element)
    : ∃ front,
        bytes = front ++ element
        ∧ ∀ other, other.head? = element.head? → AtElement first (front ++ other) other := by
  obtain ⟨arrives, byte, rest, rfl, further⟩ := atElement
  cases first with
  | true =>
      obtain ⟨blanks, split, again⟩ := skipBlanks_eq_cons arrives
      refine ⟨blanks, split, fun other same => ?_⟩
      obtain ⟨tail, rfl⟩ := List.head?_eq_some_iff.mp same
      exact ⟨again tail, byte, tail, rfl, further⟩
  | false =>
      obtain ⟨behind, skipped, skippedAgain⟩ := arrives
      obtain ⟨blanks, rfl, again⟩ := skipBlanks_eq_cons skipped
      obtain ⟨blanksBehind, rfl, againBehind⟩ := skipBlanks_eq_cons skippedAgain
      refine ⟨blanks ++ byteOf ',' :: blanksBehind, by simp, fun other same => ?_⟩
      obtain ⟨tail, rfl⟩ := List.head?_eq_some_iff.mp same
      refine ⟨⟨blanksBehind ++ byte :: tail, ?_, againBehind tail⟩, byte, tail, rfl, further⟩
      rw [List.append_assoc, List.cons_append, again]

/-- A list that is at its end has no further element. -/
theorem AtElement.not_at_end {first : Bool} {bytes element after : List UInt8}
    (atElement : AtElement first bytes element)
    : skipBlanks bytes ≠ byteOf ']' :: after := by
  intro ended
  obtain ⟨arrives, byte, rest, rfl, further⟩ := atElement
  cases first with
  | true => exact further (List.cons.inj (Eq.trans (Eq.symm arrives) ended)).1
  | false =>
      obtain ⟨behind, skipped, _⟩ := arrives
      rw [skipped] at ended
      exact absurd (List.cons.inj ended).1 (by decide)

theorem startValue_skipBlanks (bytes : List UInt8)
    : startValue (skipBlanks bytes) = startValue bytes := by
  unfold startValue
  rw [skipBlanks_skipBlanks]

/-- Blanks in front of a value change nothing about its extent. -/
theorem Spans.of_skipBlanks {bytes rest : List UInt8}
    (spans : Spans .value (skipBlanks bytes) rest)
    : Spans .value bytes rest := by
  cases spans with
  | scalar passed => exact .scalar (startValue_skipBlanks bytes ▸ passed)
  | bracketed opens contents => exact .bracketed (startValue_skipBlanks bytes ▸ opens) contents

/-- Where reading comes to an element, passing comes to it or to the blanks in front of it. -/
theorem AtElement.enterValue {first : Bool} {bytes element : List UInt8}
    (atElement : AtElement first bytes element)
    : ∃ start,
        Json.enterValue .list first bytes = .ok (true, start) ∧ skipBlanks start = element := by
  obtain ⟨arrives, byte, rest, rfl, further⟩ := atElement
  unfold Json.enterValue
  cases first with
  | true =>
      have skipped : skipBlanks bytes = byte :: rest := arrives
      rw [skipped]
      refine ⟨byte :: rest, ?_, skipBlanks_cons (isBlank_of_skipBlanks skipped) rest⟩
      have stays : ¬ Bracket.list.closes byte = true := by simpa [Bracket.closes] using further
      exact (if_neg stays).trans rfl
  | false =>
      obtain ⟨behind, skipped, skippedAgain⟩ := arrives
      rw [skipped]
      exact ⟨behind, rfl, skippedAgain⟩

-----------------------------------------------------------------------------------------
-- The list form
-----------------------------------------------------------------------------------------

theorem endList_eq_ok_iff {bytes rest : List UInt8}
    : endList bytes = .ok rest ↔ skipBlanks bytes = byteOf ']' :: rest := by
  constructor
  · intro done
    unfold endList at done
    split at done
    case h_1 => cases done
    case h_2 byte behind skipped =>
      split at done
      case isTrue closes =>
        cases done
        rw [skipped, closes]
      case isFalse =>
        split at done
        all_goals cases done
  · intro skipped
    unfold endList
    rw [skipped]
    exact if_pos rfl

theorem enterValue_of_bracket {first : Bool} {bytes rest : List UInt8}
    (skipped : skipBlanks bytes = byteOf ']' :: rest)
    : enterValue .list first bytes = .ok (false, rest) := by
  unfold enterValue
  rw [skipped]
  rfl

/-- There is an element to read, or the list is at its end. -/
theorem readElement?_eq_ok_iff {first : Bool} {read : Reader α} {bytes rest : List UInt8}
    {filled : Option α}
    : readElement? first read bytes = .ok (filled, rest)
      ↔ (∃ element value,
          filled = some value
          ∧ AtElement first bytes element
          ∧ read element = .ok (value, rest))
        ∨ (filled = none
          ∧ ∃ behind, rest = byteOf ']' :: behind ∧ skipBlanks bytes = byteOf ']' :: behind) := by
  unfold readElement?
  rw [bind_eq_ok_iff]
  constructor
  · rintro ⟨⟨more, after⟩, next, done⟩
    have next := formal_eq_ok_iff.mp next
    cases more with
    | true =>
        obtain ⟨⟨value, behind⟩, valueRead, returned⟩ := bind_eq_ok_iff.mp done
        cases returned
        exact .inl ⟨after, value, rfl, nextElement_eq_true_iff.mp next, valueRead⟩
    | false =>
        cases done
        exact .inr ⟨rfl, nextElement_eq_false_iff.mp next⟩
  · rintro (⟨element, value, rfl, atElement, valueRead⟩ | ⟨rfl, behind, rfl, skipped⟩)
    · refine ⟨(true, element), formal_eq_ok_iff.mpr (nextElement_eq_true_iff.mpr atElement), ?_⟩
      exact bind_eq_ok_iff.mpr ⟨(value, rest), valueRead, rfl⟩
    · refine ⟨(false, _), formal_eq_ok_iff.mpr ?_, rfl⟩
      exact nextElement_eq_false_iff.mpr ⟨behind, rfl, skipped⟩

namespace RecordKind

/-- Reads the fields of the list form and the closing bracket behind them. -/
def readListed (kind : RecordKind σ α) (index : Nat) (fields : List (RecordField σ)) (draft : σ)
    : Reader σ := fun bytes => do
  let (draft, bytes) ← kind.readFields index fields draft bytes
  let rest ← formal (endList bytes)
  return (draft, rest)

theorem readListed_nil_eq_ok_iff {kind : RecordKind σ α} {index : Nat} {draft final : σ}
    {bytes rest : List UInt8}
    : kind.readListed index [] draft bytes = .ok (final, rest)
      ↔ final = draft ∧ skipBlanks bytes = byteOf ']' :: rest := by
  unfold readListed readFields
  rw [← endList_eq_ok_iff, bind_eq_ok_iff]
  constructor
  · rintro ⟨_, read, done⟩
    cases read
    obtain ⟨behind, ended, returned⟩ := bind_eq_ok_iff.mp done
    cases returned
    exact ⟨rfl, formal_eq_ok_iff.mp ended⟩
  · rintro ⟨rfl, ended⟩
    exact ⟨(final, bytes), rfl, bind_eq_ok_iff.mpr ⟨rest, formal_eq_ok_iff.mpr ended, rfl⟩⟩

/-- The next field of a list is read from the next element, and where the list ends, the remaining
fields are passed over if they may be absent.
-/
theorem readListed_cons_eq_ok_iff {kind : RecordKind σ α} {index : Nat} {field : RecordField σ}
    {fields : List (RecordField σ)} {draft final : σ} {bytes rest : List UInt8}
    : kind.readListed index (field :: fields) draft bytes = .ok (final, rest)
      ↔ (∃ element next behind,
          AtElement (index = 0) bytes element
          ∧ field.read draft element = .ok (next, behind)
          ∧ kind.readListed (index + 1) fields next behind = .ok (final, rest))
        ∨ (kind.complete = false
          ∧ ∃ behind,
              skipBlanks bytes = byteOf ']' :: behind
              ∧ kind.readListed (index + 1) fields draft (byteOf ']' :: behind)
                = .ok (final, rest)) := by
  have unfolded : kind.readListed index (field :: fields) draft bytes
      = readElement? (index = 0) (field.read draft) bytes >>= fun read =>
          read.1.elim
            (if kind.complete then .error (kind.shortList index)
              else kind.readListed (index + 1) fields draft read.2)
            fun next => kind.readListed (index + 1) fields next read.2 := by
    unfold readListed
    rw [readFields]
    cases readElement? (index = 0) (field.read draft) bytes with
    | error e => rfl
    | ok read =>
        obtain ⟨filled, behind⟩ := read
        cases filled with
        | some next => rfl
        | none => cases complete : kind.complete <;> rfl
  rw [unfolded, bind_eq_ok_iff]
  constructor
  · rintro ⟨⟨filled, behind⟩, read, done⟩
    rcases readElement?_eq_ok_iff.mp read with
      ⟨element, next, rfl, atElement, fieldRead⟩ | ⟨rfl, after, rfl, skipped⟩
    · exact .inl ⟨element, next, behind, atElement, fieldRead, done⟩
    · dsimp only at done
      split at done
      case isTrue => cases done
      case isFalse optional => exact .inr ⟨by simpa using optional, after, skipped, done⟩
  · rintro (⟨element, next, behind, atElement, fieldRead, done⟩ | ⟨optional, behind, skipped, done⟩)
    · exact ⟨(some next, behind),
        readElement?_eq_ok_iff.mpr (.inl ⟨element, next, rfl, atElement, fieldRead⟩), done⟩
    · refine ⟨(none, _), readElement?_eq_ok_iff.mpr (.inr ⟨rfl, behind, rfl, skipped⟩), ?_⟩
      exact (if_neg (by simp [optional])).trans done

/-- Behind the last element only the closing bracket is taken, by induction on the fields. -/
theorem readListed_at_end {kind : RecordKind σ α} {index : Nat} {fields : List (RecordField σ)}
    {draft final : σ} {bytes after rest : List UInt8}
    (skipped : skipBlanks bytes = byteOf ']' :: after)
    (done : kind.readListed index fields draft bytes = .ok (final, rest))
    : rest = after
      ∧ ∀ {bytes after},
          skipBlanks bytes = byteOf ']' :: after
          → kind.readListed index fields draft bytes = .ok (final, after) := by
  induction fields generalizing index bytes after with
  | nil =>
      obtain ⟨rfl, ended⟩ := readListed_nil_eq_ok_iff.mp done
      rw [skipped] at ended
      exact ⟨(List.cons.inj ended).2.symm, fun ends => readListed_nil_eq_ok_iff.mpr ⟨rfl, ends⟩⟩
  | cons field fields ih =>
      rcases readListed_cons_eq_ok_iff.mp done with
        ⟨element, next, behind, atElement, _, _⟩ | ⟨optional, behind, ended, done⟩
      · exact (atElement.not_at_end skipped).elim
      · rw [skipped] at ended
        obtain ⟨_, rfl⟩ := List.cons.inj ended
        have bracket : skipBlanks (byteOf ']' :: after) = byteOf ']' :: after := rfl
        obtain ⟨atAfter, again⟩ := ih bracket done
        refine ⟨atAfter, fun {bytes after} ends => ?_⟩
        exact readListed_cons_eq_ok_iff.mpr (.inr ⟨optional, after, ends, again rfl⟩)

/-- The fields of a list are read in their whole extent, by induction on the fields. -/
theorem readListed_faithful {kind : RecordKind σ α} {fields : List (RecordField σ)}
    (faithful : ∀ field ∈ fields, ∀ draft, Faithful False .value (field.read draft)) (index : Nat)
    (draft : σ)
    : Faithful False (.inside .list (index = 0)) (kind.readListed index fields draft) := by
  have takesEnd {index : Nat} {fields : List (RecordField σ)} {draft final : σ}
      {bytes after rest : List UInt8} (skipped : skipBlanks bytes = byteOf ']' :: after)
      (done : kind.readListed index fields draft bytes = .ok (final, rest))
      : ∃ taken,
          bytes = taken ++ rest
          ∧ (taken = [] → False)
          ∧ ∀ other,
              (False → other.head? = rest.head?)
              → kind.readListed index fields draft (taken ++ other) = .ok (final, other) := by
    obtain ⟨rfl, ends⟩ := readListed_at_end skipped done
    obtain ⟨blanks, rfl, again⟩ := skipBlanks_eq_cons skipped
    refine ⟨blanks ++ [byteOf ']'], by simp, by simp, fun other _ => ends ?_⟩
    rw [List.append_assoc, List.singleton_append]
    exact again other
  induction fields generalizing index draft with
  | nil =>
      refine ⟨fun bytes final rest done => ?_, fun done => ?_⟩
      · exact takesEnd (readListed_nil_eq_ok_iff.mp done).2 done
      · exact .closed (enterValue_of_bracket (readListed_nil_eq_ok_iff.mp done).2)
  | cons field fields ih =>
      obtain ⟨fieldFaithful, fieldsFaithful⟩ := List.forall_mem_cons.mp faithful
      refine ⟨fun bytes final rest done => ?_, fun {bytes final rest} done => ?_⟩
      · rcases readListed_cons_eq_ok_iff.mp done with
          ⟨element, next, behind, atElement, fieldRead, remaining⟩ | ⟨_, behind, skipped, _⟩
        · obtain ⟨front, rfl, frontAgain⟩ := atElement.again
          obtain ⟨value, rfl, nonempty, valueAgain⟩ :=
            (fieldFaithful draft).takes element next behind fieldRead
          obtain ⟨taken, rfl, _, again⟩ :=
            (ih fieldsFaithful (index + 1) next).takes behind final rest remaining
          have takesSome : front ++ (value ++ taken) ≠ [] :=
            fun empty => nonempty (List.append_eq_nil_iff.mp (List.append_eq_nil_iff.mp empty).2).1
          refine ⟨front ++ (value ++ taken), by simp, takesSome, fun other follows => ?_⟩
          rw [List.append_assoc, List.append_assoc]
          refine readListed_cons_eq_ok_iff.mpr
            (.inl ⟨_, next, _, frontAgain _ ?_, valueAgain _ False.elim, again other follows⟩)
          exact head?_append_congr fun empty => (nonempty empty).elim
        · exact takesEnd skipped done
      · rcases readListed_cons_eq_ok_iff.mp done with
          ⟨element, next, behind, atElement, fieldRead, remaining⟩ | ⟨_, behind, skipped, _⟩
        · obtain ⟨start, entered, reaches⟩ := atElement.enterValue
          have value : Spans .value start behind :=
            .of_skipBlanks (reaches ▸ (fieldFaithful draft).spans fieldRead)
          exact .further entered value ((ih fieldsFaithful (index + 1) next).spans remaining)
        · obtain ⟨rfl, _⟩ := readListed_at_end skipped done
          exact .closed (enterValue_of_bracket skipped)

-----------------------------------------------------------------------------------------
-- Both forms
-----------------------------------------------------------------------------------------

/-- Reads the draft of a record behind the bracket that opens it. -/
def readDraft (kind : RecordKind σ α) : Bracket → Reader σ
  | .object => readMembers kind.start kind.readMember
  | .list => kind.readListed 0 kind.fields kind.start

/-- A record is read exactly from the draft behind its bracket. -/
theorem read_eq_ok_iff {kind : RecordKind σ α} {bytes rest : List UInt8} {value : α}
    : kind.read bytes = .ok (value, rest)
      ↔ ∃ bracket inner draft,
          skipBlanks bytes = bracket.opening :: inner
          ∧ kind.readDraft bracket inner = .ok (draft, rest)
          ∧ kind.finish draft = .ok value := by
  unfold read readRecord
  constructor
  · intro done
    split at done
    case h_1 => cases done
    case h_2 byte inner skipped =>
      split at done
      case isTrue brace =>
        subst brace
        obtain ⟨⟨draft, behind⟩, members, done⟩ := bind_eq_ok_iff.mp done
        obtain ⟨_, finished, returned⟩ := bind_eq_ok_iff.mp done
        cases returned
        exact ⟨.object, inner, draft, skipped, members, finished⟩
      case isFalse =>
        split at done
        case isTrue opens =>
          subst opens
          obtain ⟨⟨_, behind⟩, elements, done⟩ := bind_eq_ok_iff.mp done
          obtain ⟨⟨draft, after⟩, fields, finishes⟩ := bind_eq_ok_iff.mp elements
          obtain ⟨_, finished, returned⟩ := bind_eq_ok_iff.mp finishes
          cases returned
          obtain ⟨closed, ended, returned⟩ := bind_eq_ok_iff.mp done
          cases returned
          have listed : kind.readListed 0 kind.fields kind.start inner = .ok (draft, rest) :=
            bind_eq_ok_iff.mpr ⟨_, fields, bind_eq_ok_iff.mpr ⟨_, ended, rfl⟩⟩
          exact ⟨.list, inner, draft, skipped, listed, finished⟩
        case isFalse => exact (mismatch_ne_ok done).elim
  · rintro ⟨bracket, inner, draft, skipped, draftRead, finished⟩
    rw [skipped]
    cases bracket with
    | object =>
        refine bind_eq_ok_iff.mpr ⟨_, draftRead, ?_⟩
        exact bind_eq_ok_iff.mpr ⟨value, finished, rfl⟩
    | list =>
        obtain ⟨⟨_, behind⟩, fields, done⟩ := bind_eq_ok_iff.mp draftRead
        obtain ⟨_, ended, returned⟩ := bind_eq_ok_iff.mp done
        cases returned
        refine bind_eq_ok_iff.mpr ⟨(value, behind), ?_, ?_⟩
        · refine bind_eq_ok_iff.mpr ⟨_, fields, ?_⟩
          exact bind_eq_ok_iff.mpr ⟨value, finished, rfl⟩
        · exact bind_eq_ok_iff.mpr ⟨rest, ended, rfl⟩

/-- Every field reads its value in its whole extent. -/
def FieldsFaithful (kind : RecordKind σ α) : Prop :=
  ∀ field ∈ kind.fields, ∀ draft, Faithful False .value (field.read draft)

/-- Each member is read in its whole extent if each field is. -/
theorem readMember_faithful {kind : RecordKind σ α} (faithful : kind.FieldsFaithful)
    (draft : σ) (name : String)
    : FaithfulMember (kind.readMember draft name) := by
  unfold readMember
  split
  case h_1 => exact skipValue_faithful.member.map fun _ => draft
  case h_2 field found =>
    split
    case isTrue => exact ⟨nofun, nofun⟩
    case isFalse =>
      have member := List.mem_of_find?_eq_some found
      exact ((faithful field member draft).weaken True).member

/-- A record is read in its whole extent if each field is. -/
theorem read_faithful {kind : RecordKind σ α} (faithful : kind.FieldsFaithful)
    : Faithful False .value kind.read := by
  let inside (bracket : Bracket) : Reader α := fun bytes => do
    let (draft, rest) ← kind.readDraft bracket bytes
    let value ← kind.finish draft
    return (value, rest)
  have reads {bytes rest : List UInt8} {value : α}
      : kind.read bytes = .ok (value, rest)
        ↔ ∃ bracket inner,
            skipBlanks bytes = bracket.opening :: inner
            ∧ inside bracket inner = .ok (value, rest) := by
    rw [read_eq_ok_iff]
    constructor
    · rintro ⟨bracket, inner, draft, skipped, draftRead, finished⟩
      refine ⟨bracket, inner, skipped, bind_eq_ok_iff.mpr ⟨_, draftRead, ?_⟩⟩
      exact bind_eq_ok_iff.mpr ⟨value, finished, rfl⟩
    · rintro ⟨bracket, inner, skipped, done⟩
      obtain ⟨⟨draft, behind⟩, draftRead, finishing⟩ := bind_eq_ok_iff.mp done
      obtain ⟨_, finished, returned⟩ := bind_eq_ok_iff.mp finishing
      cases returned
      exact ⟨bracket, inner, draft, skipped, draftRead, finished⟩
  refine .of_opening inside reads fun bracket => ?_
  have draft : Faithful False (.inside bracket true) (kind.readDraft bracket) := by
    cases bracket with
    | object => exact readMembers_faithful (readMember_faithful faithful) kind.start
    | list => exact readListed_faithful faithful 0 kind.start
  exact draft.finish kind.finish

end RecordKind

end LogIntake.Json
