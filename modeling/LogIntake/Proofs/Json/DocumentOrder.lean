import LogIntake.Proofs.Json.Faithful
import LogIntake.Proofs.NameMap.Lookup
import Mathlib.Data.List.Induction

/-! The members of an object in the order of the document. Reading keeps them all here, repeated
names included; the value of the object is built from them in turn, so of several members of one
name it has the last.
-/

namespace LogIntake.Json

variable {σ τ : Type}

/-- Reads a member behind others, from its colon on. -/
def appendEntry (depth : Nat) (entries : List (String × Json)) (name : String)
    : Reader (List (String × Json)) :=
  (memberValue (readValue depth)).map fun value => entries ++ [(name, value)]

/-- Reads an object as the list of its members. The depth is that of reading their values. -/
def readEntries (depth : Nat) : Reader (List (String × Json)) :=
  readBraced (readMembers [] (appendEntry depth))

/-- What is seen of the state can be read by itself if it can be at every step, by induction on the
bound.
-/
theorem foldMembers_view (view : σ → τ) {step : σ → String → Reader σ}
    {viewStep : τ → String → Reader τ}
    (steps : ∀ state name, viewStep (view state) name = (step state name).map view) (bound : Nat)
    (first : Bool) (state : σ)
    : foldMembers viewStep bound first (view state)
      = Reader.map (foldMembers step bound first state) view := by
  funext bytes
  induction bound generalizing first state bytes with
  | zero => rfl
  | succ bound ih =>
      rw [Reader.map, foldMembers_succ, foldMembers_succ]
      cases formal (startMember first bytes) with
      | error e => rfl
      | ok started =>
          obtain ⟨name?, colon⟩ := started
          cases name? with
          | none => rfl
          | some name =>
              change (viewStep (view state) name colon >>= _) = (step state name colon >>= _) >>= _
              rw [steps, Reader.map]
              cases step state name colon with
              | error e => rfl
              | ok stepped => exact ih false stepped.1 stepped.2

/-- The members of an object that come about from entries in turn. -/
def membersOf (entries : List (String × Json)) : List (String × Json) :=
  entries.foldl (fun members entry => insertEntry entry.1 entry.2 members) []

theorem lookup_membersOf (entries : List (String × Json)) (name : String)
    : (membersOf entries).lookup name = entries.reverse.lookup name := by
  induction entries using List.reverseRecOn with
  | nil => rfl
  | append_singleton entries entry ih =>
      rw [membersOf, List.foldl_append, List.reverse_append, List.reverse_singleton,
        List.singleton_append, lookup_cons_entry, ← ih]
      exact lookup_insertEntry entry.1 name entry.2 (membersOf entries)

/-- Members that are inserted as they are read are inserted in the order of the document. -/
theorem readMembers_insertEntry (depth : Nat) (inner : List UInt8)
    : readMembers []
          (fun members name =>
            (memberValue (readValue depth)).map fun value => insertEntry name value members)
          inner
      = Reader.map (readMembers [] (appendEntry depth)) membersOf inner := by
  refine congrFun (foldMembers_view membersOf ?_ (inner.length + 1) true []) inner
  intro entries name
  funext bytes
  simp only [appendEntry, Reader.map]
  cases memberValue (readValue depth) bytes with
  | error e => rfl
  | ok read =>
      change Except.ok (_, _) = Except.ok (membersOf (entries ++ [(name, read.1)]), read.2)
      rw [membersOf, membersOf, List.foldl_append]
      rfl

/-- No value without brackets is an object, by the cases in which the first byte is looked at. -/
theorem readScalar_ne_obj {bytes rest : List UInt8} {members : List (String × Json)}
    : readScalar bytes ≠ .ok (.obj members, rest) := by
  have mapped {α : Type} {result : Except FormError α} {make : α → Json × List UInt8}
      (noObject : ∀ part, (make part).1 ≠ .obj members)
      : result.map make ≠ .ok (.obj members, rest) := by
    intro made
    cases result with
    | error fault => cases made
    | ok part => exact noObject part (congrArg Prod.fst (Except.ok.inj made))
  cases bytes with
  | nil =>
      intro done
      cases done
  | cons byte bytes =>
      rw [readScalar]
      split_ifs
      all_goals
        first
          | exact mapped fun _ => Json.noConfusion
          | exact fun failed => by cases failed

/-- An object reads as what comes about from its members in turn. -/
theorem readValue_eq_obj_iff {depth : Nat} {bytes rest : List UInt8}
    {members : List (String × Json)}
    : readValue (depth + 2) bytes = .ok (.obj members, rest)
      ↔ ∃ entries,
          readEntries (depth + 1) bytes = .ok (entries, rest) ∧ members = membersOf entries := by
  have inside (inner : List UInt8)
      : (Reader.map (readMembers [] (appendEntry (depth + 1))) membersOf inner >>= fun read =>
            Except.ok (Json.obj read.1, read.2))
          = .ok (.obj members, rest)
        ↔ ∃ entries,
            readMembers [] (appendEntry (depth + 1)) inner = .ok (entries, rest)
            ∧ members = membersOf entries := by
    rw [Reader.map]
    cases readMembers [] (appendEntry (depth + 1)) inner with
    | error e => exact iff_of_false nofun nofun
    | ok read =>
        change Except.ok (Json.obj (membersOf read.1), read.2) = _ ↔ _
        simp [eq_comm, and_comm, Prod.ext_iff]
  simp only [readEntries, readBraced_eq_ok_iff]
  rw [readValue]
  cases skipped : skipBlanks bytes with
  | nil => simp
  | cons byte inner =>
      by_cases object : byte = byteOf '\x7b'
      · subst object
        have noList : ¬byteOf '\x7b' = byteOf '[' := by decide
        dsimp only
        rw [if_neg noList, if_pos rfl, if_neg (Nat.succ_ne_zero depth)]
        refine Iff.trans ?_ ((inside inner).trans (by simp))
        rw [← readMembers_insertEntry]
        rfl
      · refine iff_of_false (fun done => ?_) ?_
        · dsimp only at done
          rw [if_neg object] at done
          split_ifs at done
          · obtain ⟨_, _, returned⟩ := bind_eq_ok_iff.mp done
            cases returned
          · exact readScalar_ne_obj (formal_eq_ok_iff.mp done)
        · intro read
          obtain ⟨entries, ⟨_, same, _⟩, _⟩ := read
          exact object (List.cons.inj same).1

/-- The members of a document that is an object. -/
def documentEntries (bytes : List UInt8) : Except DecodeError (List (String × Json)) :=
  readDocument (readEntries (maxDepth - 1)) bytes

theorem parse_eq_obj_iff {bytes : List UInt8} {members : List (String × Json)}
    : parse bytes = .ok (.obj members)
      ↔ ∃ entries, documentEntries bytes = .ok entries ∧ members = membersOf entries := by
  have reads {rest : List UInt8}
      : readValue maxDepth bytes = .ok (.obj members, rest)
        ↔ ∃ entries,
            readEntries (maxDepth - 1) bytes = .ok (entries, rest)
            ∧ members = membersOf entries :=
    readValue_eq_obj_iff
  simp only [parse, documentEntries, readDocument_eq_ok_iff, reads]
  constructor
  · intro formed
    obtain ⟨rest, ⟨entries, read, rfl⟩, blank⟩ := formed
    exact ⟨entries, ⟨rest, read, blank⟩, rfl⟩
  · intro formed
    obtain ⟨entries, ⟨rest, read, blank⟩, rfl⟩ := formed
    exact ⟨rest, ⟨entries, read, rfl⟩, blank⟩

end LogIntake.Json
