import LogIntake.Proofs.Json.Faithful

/-! The members of an object as a document writes them: each with its name and with the text of its
value, which stays uninterpreted. Every way of reading an object goes through these members in turn.
-/

namespace LogIntake.Json

variable {σ : Type}

/-- The bytes in front of others. -/
def bytesBefore (rest bytes : List UInt8) : List UInt8 :=
  bytes.take (bytes.length - rest.length)

/-- Reads a value as the text that it is written with, blanks in front of it included. -/
def readWritten : Reader (List UInt8) := fun bytes => do
  let ((), rest) ← skipValue bytes
  return (bytesBefore rest bytes, rest)

/-- A member with its name and the text of its value. -/
abbrev WrittenMember :=
  String × List UInt8

/-- Reads the value of a member, from its colon on, behind other members. -/
def appendMember (members : List WrittenMember) (name : String) : Reader (List WrittenMember) :=
  fun bytes => do
    let (text, bytes) ← memberValue readWritten bytes
    return (members ++ [(name, text)], bytes)

/-- Reads the members of an object in the order in which they are written. -/
def readWrittenMembers : Reader (List WrittenMember) :=
  readBraced (readMembers [] appendMember)

/-- The members of a document that is an object. -/
def objectMembers? (bytes : List UInt8) : Option (List WrittenMember) :=
  (readDocument readWrittenMembers bytes).toOption

/-- Names are read and values are not. -/
example
    : objectMembers? (Text.Utf8.encode "\x7b\"\\u0062\": [1, 2] ,\"a\":\"\\u0062\"\x7d ")
      = some [("b", Text.Utf8.encode " [1, 2]"), ("a", Text.Utf8.encode "\"\\u0062\"")] := by
  decide +kernel

-----------------------------------------------------------------------------------------
-- Texts of values
-----------------------------------------------------------------------------------------

theorem bytesBefore_append (taken rest : List UInt8)
    : bytesBefore rest (taken ++ rest) = taken := by
  simp [bytesBefore]

theorem Spans.unique {bytes left right : List UInt8} (leftSpans : Spans .value bytes left)
    (rightSpans : Spans .value bytes right)
    : left = right := by
  have same := (skipValue_eq_ok_iff.mpr leftSpans).symm.trans (skipValue_eq_ok_iff.mpr rightSpans)
  exact (Prod.mk.inj (Except.ok.inj same)).2

/-- What is written is what stands in the extent of the value. -/
theorem readWritten_eq_ok_iff {bytes text rest : List UInt8}
    : readWritten bytes = .ok (text, rest)
      ↔ bytes = text ++ rest ∧ Spans .value bytes rest := by
  unfold readWritten
  rw [bind_eq_ok_iff]
  constructor
  · rintro ⟨⟨_, behind⟩, skipped, returned⟩
    cases returned
    have spans := skipValue_eq_ok_iff.mp skipped
    obtain ⟨taken, rfl, _, _⟩ := spans.again
    exact ⟨by rw [bytesBefore_append], spans⟩
  · rintro ⟨rfl, spans⟩
    refine ⟨((), rest), skipValue_eq_ok_iff.mpr spans, ?_⟩
    dsimp only
    rw [bytesBefore_append]
    rfl

theorem readWritten_faithful : Faithful True .value readWritten where
  takes := by
    intro bytes text rest done
    obtain ⟨rfl, spans⟩ := readWritten_eq_ok_iff.mp done
    obtain ⟨taken, split, _, again⟩ := spans.again
    obtain rfl := List.append_cancel_right split
    refine ⟨text, rfl, fun _ => trivial, fun other follows => ?_⟩
    exact readWritten_eq_ok_iff.mpr ⟨rfl, again other (follows trivial)⟩
  spans done := (readWritten_eq_ok_iff.mp done).2

theorem appendMember_faithful (members : List WrittenMember) (name : String)
    : FaithfulMember (appendMember members name) :=
  readWritten_faithful.member.map fun text => members ++ [(name, text)]

theorem appendMember_eq_ok_iff {members all : List WrittenMember} {name : String}
    {bytes rest : List UInt8}
    : appendMember members name bytes = .ok (all, rest)
      ↔ ∃ text,
          all = members ++ [(name, text)]
          ∧ passColon bytes = .ok (text ++ rest)
          ∧ Spans .value (text ++ rest) rest := by
  unfold appendMember
  rw [bind_eq_ok_iff]
  constructor
  · rintro ⟨⟨text, behind⟩, valueRead, returned⟩
    cases returned
    obtain ⟨start, passed, written⟩ := memberValue_eq_ok_iff.mp valueRead
    obtain ⟨rfl, spans⟩ := readWritten_eq_ok_iff.mp written
    exact ⟨text, rfl, passed, spans⟩
  · rintro ⟨text, rfl, passed, spans⟩
    refine ⟨(text, rest), memberValue_eq_ok_iff.mpr ⟨_, passed, ?_⟩, rfl⟩
    exact readWritten_eq_ok_iff.mpr ⟨rfl, spans⟩

-----------------------------------------------------------------------------------------
-- Members in turn
-----------------------------------------------------------------------------------------

/-- The members are written at the front of the first bytes, and the closing brace in front of the
second bytes. The number bounds how many members there are, as for reading them.
-/
inductive Written : Nat → Bool → List UInt8 → List WrittenMember → List UInt8 → Prop
  | ended {bound first bytes rest} (ends : startMember first bytes = .ok (none, rest))
    : Written (bound + 1) first bytes [] rest
  | member {bound first bytes colon name text behind members rest}
    (named : startMember first bytes = .ok (some name, colon))
    (passed : passColon colon = .ok (text ++ behind))
    (value : Spans .value (text ++ behind) behind)
    (remaining : Written bound false behind members rest)
    : Written (bound + 1) first bytes ((name, text) :: members) rest

/-- Members are read exactly as they are written, by induction on the bound. -/
theorem foldMembers_append_eq_ok_iff {bound : Nat} {first : Bool}
    {members all : List WrittenMember} {bytes rest : List UInt8}
    : foldMembers appendMember bound first members bytes = .ok (all, rest)
      ↔ ∃ written, all = members ++ written ∧ Written bound first bytes written rest := by
  induction bound generalizing first members bytes with
  | zero =>
      constructor
      · intro done
        cases done
      · rintro ⟨_, _, written⟩
        cases written
  | succ bound ih =>
      rw [foldMembers_succ, bind_eq_ok_iff]
      constructor
      · rintro ⟨⟨name?, colon⟩, started, done⟩
        have named := formal_eq_ok_iff.mp started
        cases name? with
        | none =>
            cases done
            exact ⟨[], by simp, .ended named⟩
        | some name =>
            obtain ⟨⟨next, behind⟩, stepped, done⟩ := bind_eq_ok_iff.mp done
            obtain ⟨text, rfl, passed, value⟩ := appendMember_eq_ok_iff.mp stepped
            obtain ⟨written, rfl, remaining⟩ := ih.mp done
            exact ⟨(name, text) :: written, by simp, .member named passed value remaining⟩
      · rintro ⟨_, rfl, written⟩
        cases written with
        | ended ends => exact ⟨(none, rest), formal_eq_ok_iff.mpr ends, by simp⟩
        | @member _ _ _ colon name text behind written _ named passed value remaining =>
            refine ⟨(some name, colon), formal_eq_ok_iff.mpr named, ?_⟩
            refine bind_eq_ok_iff.mpr ⟨(members ++ [(name, text)], behind), ?_, ?_⟩
            · exact appendMember_eq_ok_iff.mpr ⟨text, rfl, passed, value⟩
            · exact ih.mpr ⟨written, by simp, remaining⟩

/-- Whatever reads the members of an object faithfully, they are written there, by induction on the
bound.
-/
theorem exists_written {step : σ → String → Reader σ}
    (faithful : ∀ state name, FaithfulMember (step state name)) {bound : Nat} {first : Bool}
    {state final : σ} {bytes rest : List UInt8}
    (done : foldMembers step bound first state bytes = .ok (final, rest))
    : ∃ members, Written bound first bytes members rest := by
  induction bound generalizing first state bytes with
  | zero => cases done
  | succ bound ih =>
      rw [foldMembers_succ] at done
      obtain ⟨⟨name?, colon⟩, started, done⟩ := bind_eq_ok_iff.mp done
      have named := formal_eq_ok_iff.mp started
      cases name? with
      | none =>
          cases done
          exact ⟨[], .ended named⟩
      | some name =>
          obtain ⟨⟨next, behind⟩, stepped, done⟩ := bind_eq_ok_iff.mp done
          obtain ⟨start, passed, value⟩ := (faithful state name).spans stepped
          obtain ⟨text, rfl, _, _⟩ := value.again
          obtain ⟨members, remaining⟩ := ih done
          exact ⟨(name, text) :: members, .member named passed value remaining⟩

theorem readWrittenMembers_faithful : Faithful False .value readWrittenMembers :=
  readBraced_faithful (readMembers_faithful appendMember_faithful [])

/-- The members of an object are written behind its opening brace. -/
theorem readWrittenMembers_eq_ok_iff {bytes rest : List UInt8} {members : List WrittenMember}
    : readWrittenMembers bytes = .ok (members, rest)
      ↔ ∃ inner,
          skipBlanks bytes = byteOf '\x7b' :: inner
          ∧ Written (inner.length + 1) true inner members rest := by
  rw [readWrittenMembers, readBraced_eq_ok_iff]
  simp only [readMembers, foldMembers_append_eq_ok_iff, List.nil_append, exists_eq_left']

/-- A document has members if they are written in it, with nothing but blanks behind the object. -/
theorem objectMembers?_eq_some_iff {bytes : List UInt8} {members : List WrittenMember}
    : objectMembers? bytes = some members
      ↔ ∃ rest,
          readWrittenMembers bytes = .ok (members, rest) ∧ (skipBlanks rest).isEmpty = true := by
  rw [← readDocument_eq_ok_iff, objectMembers?]
  cases readDocument readWrittenMembers bytes <;> simp [Except.toOption]

end LogIntake.Json
