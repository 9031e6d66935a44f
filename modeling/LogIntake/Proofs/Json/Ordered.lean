import LogIntake.Json.Reader
import LogIntake.Proofs.Outcome

/-! Values that were read from a document. At every level the members of an object stand in
ascending order of their names, each name once: of several members of one name the reader
keeps the last.
-/

namespace LogIntake.Json

/-- The members of every object inside the value are in ascending order of names. -/
inductive Ordered : Json → Prop
  | null : Ordered .null
  | bool (b : Bool) : Ordered (.bool b)
  | num (n : Number) : Ordered (.num n)
  | str (text : String) : Ordered (.str text)
  | arr {items} (each : ∀ item ∈ items, Ordered item) : Ordered (.arr items)
  | obj {members}
    (ascending : members.Pairwise fun left right : String × Json => left.1 < right.1)
    (each : ∀ member ∈ members, Ordered member.2)
    : Ordered (.obj members)

theorem Ordered.ascending_members {members : List (String × Json)}
    (ordered : Ordered (.obj members))
    : members.Pairwise fun left right => left.1 < right.1 := by
  cases ordered with
  | obj ascending _ => exact ascending

theorem Ordered.member {members : List (String × Json)} (ordered : Ordered (.obj members))
    {name : String} {value : Json} (found : members.lookup name = some value)
    : Ordered value := by
  cases ordered with
  | obj _ each =>
      obtain ⟨before, after, split, _⟩ := List.lookup_eq_some_iff.mp found
      exact each (name, value) (split ▸ by simp)

theorem Ordered.item {items : List Json} (ordered : Ordered (.arr items)) {item : Json}
    (member : item ∈ items)
    : Ordered item := by
  cases ordered with
  | arr each => exact each item member

theorem formal_eq_ok_iff {α : Type} {result : Except FormError α} {value : α}
    : formal result = .ok value ↔ result = .ok value :=
  mapError_eq_ok_iff

variable {σ : Type}

/-- What every step over an element keeps, reading all elements keeps, by induction on the
bound.
-/
theorem foldElements_invariant (holds : σ → Prop) {step : σ → Reader σ}
    (keeps
      : ∀ {state bytes next rest}, holds state → step state bytes = .ok (next, rest) → holds next)
    {bound : Nat} {first : Bool} {state final : σ} {bytes rest : List UInt8}
    (initial : holds state)
    (finished : foldElements step bound first state bytes = .ok (final, rest))
    : holds final := by
  induction bound generalizing first state bytes with
  | zero => cases finished
  | succ bound ih =>
      rw [foldElements] at finished
      obtain ⟨⟨more, bytes'⟩, _, finished⟩ := bind_eq_ok_iff.mp finished
      cases more with
      | false =>
          cases finished
          exact initial
      | true =>
          obtain ⟨⟨next, bytes''⟩, stepped, finished⟩ := bind_eq_ok_iff.mp finished
          exact ih (keeps initial stepped) finished

/-- What every step over a member keeps, reading all members keeps, by induction on the
bound.
-/
theorem foldMembers_invariant (holds : σ → Prop) {step : σ → String → Reader σ}
    (keeps
      : ∀ {state name bytes next rest},
          holds state → step state name bytes = .ok (next, rest) → holds next)
    {bound : Nat} {first : Bool} {state final : σ} {bytes rest : List UInt8}
    (initial : holds state)
    (finished : foldMembers step bound first state bytes = .ok (final, rest))
    : holds final := by
  induction bound generalizing first state bytes with
  | zero => cases finished
  | succ bound ih =>
      rw [foldMembers] at finished
      obtain ⟨⟨more, bytes'⟩, _, finished⟩ := bind_eq_ok_iff.mp finished
      cases more with
      | false =>
          cases finished
          exact initial
      | true =>
          obtain ⟨⟨name, bytes''⟩, _, finished⟩ := bind_eq_ok_iff.mp finished
          obtain ⟨⟨next, bytes'''⟩, stepped, finished⟩ := bind_eq_ok_iff.mp finished
          exact ih (keeps initial stepped) finished

theorem readScalar_ordered {bytes rest : List UInt8} {value : Json}
    (scanned : readScalar bytes = .ok (value, rest))
    : Ordered value := by
  have mapped {α : Type} {result : Except FormError α} {make : α → Json × List UInt8}
      (made : ∀ part, Ordered (make part).1) (success : result.map make = .ok (value, rest))
      : Ordered value := by
    cases result with
    | error e => cases success
    | ok part =>
        have same : (make part).1 = value := congrArg Prod.fst (Except.ok.inj success)
        exact same ▸ made part
  cases bytes with
  | nil => cases scanned
  | cons byte bytes =>
      simp only [readScalar] at scanned
      split at scanned
      · exact mapped (fun _ => .null) scanned
      split at scanned
      · exact mapped (fun _ => .bool true) scanned
      split at scanned
      · exact mapped (fun _ => .bool false) scanned
      split at scanned
      · exact mapped (fun _ => .str _) scanned
      split at scanned
      · exact mapped (fun _ => .num _) scanned
      split at scanned
      · exact mapped (fun _ => .num _) scanned
      · cases scanned

theorem readValue_ordered {depth : Nat} {bytes rest : List UInt8} {value : Json}
    (scanned : readValue depth bytes = .ok (value, rest))
    : Ordered value := by
  -- Members enter an object by ordered insertion only, and what is inside has less depth left.
  induction depth generalizing bytes rest value with
  | zero => cases scanned
  | succ depth ih =>
      rw [readValue] at scanned
      split at scanned
      case h_1 => cases scanned
      case h_2 byte bytes' _ =>
        split at scanned
        case isTrue =>
          split at scanned
          case isTrue => cases scanned
          case isFalse =>
            obtain ⟨⟨items, rest'⟩, elements, returned⟩ := bind_eq_ok_iff.mp scanned
            cases returned
            refine .arr fun item member => ?_
            have each : ∀ item ∈ items, Ordered item := by
              refine foldElements_invariant (fun items => ∀ item ∈ items, Ordered item) ?_
                (by simp) elements
              intro state bytes next rest known stepped
              obtain ⟨⟨item, bytes'⟩, itemRead, returned⟩ := bind_eq_ok_iff.mp stepped
              cases returned
              exact List.forall_mem_cons.mpr ⟨ih itemRead, known⟩
            exact each item (List.mem_reverse.mp member)
        case isFalse =>
          split at scanned
          case isTrue =>
            split at scanned
            case isTrue => cases scanned
            case isFalse =>
              obtain ⟨⟨members, rest'⟩, entries, returned⟩ := bind_eq_ok_iff.mp scanned
              cases returned
              refine foldMembers_invariant (fun members => Ordered (.obj members)) ?_
                (.obj .nil (by simp)) entries
              intro state name bytes next rest known stepped
              obtain ⟨⟨value, bytes'⟩, member, returned⟩ := bind_eq_ok_iff.mp stepped
              obtain ⟨bytes'', _, valueRead⟩ := bind_eq_ok_iff.mp member
              cases returned
              cases known with
              | obj ascending each =>
                  refine .obj (insertEntry_ascending ascending) ?_
                  intro entry inserted
                  rcases mem_insertEntry inserted with rfl | earlier
                  · exact ih valueRead
                  · exact each entry earlier
          case isFalse => exact readScalar_ordered (formal_eq_ok_iff.mp scanned)

/-- A document reads exactly if a value does and nothing but blanks follows it. -/
theorem readDocument_eq_ok_iff {α : Type} {read : Reader α} {bytes : List UInt8} {value : α}
    : readDocument read bytes = .ok value
      ↔ ∃ rest, read bytes = .ok (value, rest) ∧ (skipBlanks rest).isEmpty = true := by
  unfold readDocument
  rw [bind_eq_ok_iff]
  constructor
  · rintro ⟨⟨whole, rest⟩, scanned, finished⟩
    dsimp only at finished
    split at finished
    case isTrue blank =>
      cases finished
      exact ⟨rest, scanned, blank⟩
    case isFalse => cases finished
  · rintro ⟨rest, scanned, blank⟩
    exact ⟨(value, rest), scanned, if_pos blank⟩

/-- The value of a document is ordered. -/
theorem parse_ordered {bytes : List UInt8} {value : Json} (parsed : parse bytes = .ok value)
    : Ordered value := by
  obtain ⟨rest, scanned, _⟩ := readDocument_eq_ok_iff.mp parsed
  exact readValue_ordered scanned

end LogIntake.Json
