import LogIntake.Proofs.Json.Grammar.Values
import LogIntake.Proofs.Json.ObjectMembers

/-! How an object is written. A document has members exactly if it is written as an object with
them: their names in any spelling, with blanks in all places where blanks may stand.
-/

namespace LogIntake.Json

/-- The name of a member as it is written, with its colon. -/
inductive WritesKey : String → List UInt8 → Prop
  | quoted {blanks name written between} (blank : IsBlanks blanks)
    (named : WritesName written name) (blankBetween : IsBlanks between)
    : WritesKey name (blanks ++ 0x22 :: (written ++ 0x22 :: (between ++ [byteOf ':'])))

/-- Members as they are written, with the closing brace. -/
inductive WritesMembers : Bool → List WrittenMember → List UInt8 → Prop
  | ended {blanks first} (blank : IsBlanks blanks)
    : WritesMembers first [] (blanks ++ [byteOf '\x7d'])
  | member {first lead name key text members behind} (isLead : IsLead first lead)
    (named : WritesKey name key) (isValue : Grammatical .value text)
    (remaining : WritesMembers false members behind)
    : WritesMembers first ((name, text) :: members) (lead ++ (key ++ (text ++ behind)))

/-- A document that is an object with these members. -/
inductive WritesObject (members : List WrittenMember) : List UInt8 → Prop
  | braced {blanks contents behind} (blank : IsBlanks blanks)
    (inside : WritesMembers true members contents) (blankBehind : IsBlanks behind)
    : WritesObject members (blanks ++ byteOf '\x7b' :: (contents ++ behind))

-----------------------------------------------------------------------------------------
-- Names
-----------------------------------------------------------------------------------------

theorem exists_writesKey_iff {bytes start : List UInt8} {name : String}
    : (∃ key, WritesKey name key ∧ bytes = key ++ start)
      ↔ ∃ quoted colon,
          skipBlanks bytes = byteOf '"' :: quoted
          ∧ readString quoted = .ok (name, colon)
          ∧ passColon colon = .ok start := by
  have solid : isBlank (byteOf '"') = false := rfl
  simp only [skipBlanks_eq_cons_iff solid, readString_eq_ok_iff_writesName, passColon_eq_ok_iff]
  constructor
  · intro writes
    obtain ⟨_, ⟨blank, named, blankBetween⟩, rfl⟩ := writes
    exact ⟨_, _, ⟨_, blank, by simp [byteOf]⟩, ⟨_, named, rfl⟩, _, blankBetween, rfl⟩
  · intro writes
    obtain ⟨_, _, ⟨blanks, blank, rfl⟩, ⟨written, named, rfl⟩, between, blankBetween, rfl⟩ := writes
    exact ⟨_, .quoted blank named blankBetween, by simp [byteOf]⟩

theorem atName_iff {first : Bool} {bytes quoted : List UInt8}
    : AtName first bytes quoted
      ↔ ∃ lead behind,
          IsLead first lead
          ∧ bytes = lead ++ behind
          ∧ skipBlanks behind = byteOf '"' :: quoted := by
  cases first with
  | true =>
      constructor
      · intro skipped
        exact ⟨[], bytes, .first, rfl, skipped⟩
      · intro writes
        obtain ⟨_, _, isLead, rfl, skipped⟩ := writes
        cases isLead
        exact skipped
  | false =>
      constructor
      · intro writes
        obtain ⟨behind, comma, skipped⟩ := writes
        obtain ⟨blanks, blank, rfl⟩ := (skipBlanks_eq_cons_iff rfl).mp comma
        exact ⟨_, behind, .later blank, by simp, skipped⟩
      · intro writes
        obtain ⟨_, behind, isLead, rfl, skipped⟩ := writes
        cases isLead with
        | later blank =>
            refine ⟨behind, (skipBlanks_eq_cons_iff rfl).mpr ⟨_, blank, by simp⟩, skipped⟩

/-- A member starts exactly with its name as it is written. -/
theorem exists_startMember_iff {first : Bool} {bytes start : List UInt8} {name : String}
    : (∃ colon, startMember first bytes = .ok (some name, colon) ∧ passColon colon = .ok start)
      ↔ ∃ lead key, IsLead first lead ∧ WritesKey name key ∧ bytes = lead ++ (key ++ start) := by
  simp only [startMember_eq_some_iff, atName_iff]
  constructor
  · intro writes
    obtain ⟨colon, ⟨quoted, ⟨lead, behind, isLead, rfl, skipped⟩, nameRead⟩, passed⟩ := writes
    obtain ⟨key, named, rfl⟩ :=
      exists_writesKey_iff.mpr ⟨quoted, colon, skipped, nameRead, passed⟩
    exact ⟨lead, key, isLead, named, rfl⟩
  · intro writes
    obtain ⟨lead, key, isLead, named, rfl⟩ := writes
    obtain ⟨quoted, colon, skipped, nameRead, passed⟩ :=
      exists_writesKey_iff.mp ⟨key, named, rfl⟩
    exact ⟨colon, ⟨quoted, ⟨lead, _, isLead, rfl, skipped⟩, nameRead⟩, passed⟩

-----------------------------------------------------------------------------------------
-- Members in turn
-----------------------------------------------------------------------------------------

/-- What is read as members is written as them, by induction on the reading. -/
theorem Written.exists_writesMembers {bound : Nat} {first : Bool} {bytes rest : List UInt8}
    {members : List WrittenMember} (written : Written bound first bytes members rest)
    : ∃ contents, WritesMembers first members contents ∧ bytes = contents ++ rest := by
  induction written with
  | ended ends =>
      obtain ⟨blanks, blank, rfl⟩ :=
        (skipBlanks_eq_cons_iff rfl).mp (startMember_eq_none_iff.mp ends)
      exact ⟨_, .ended blank, by simp⟩
  | member named passed value _ ih =>
      obtain ⟨lead, key, isLead, isKey, rfl⟩ := exists_startMember_iff.mp ⟨_, named, passed⟩
      obtain ⟨text, isValue, split⟩ := value.exists_grammatical
      obtain rfl := List.append_cancel_right split
      obtain ⟨contents, remaining, rfl⟩ := ih
      exact ⟨_, .member isLead isKey isValue remaining, by simp⟩

theorem WritesMembers.endsValue {members : List WrittenMember} {contents : List UInt8}
    (writes : WritesMembers false members contents) (rest : List UInt8)
    : EndsValue (contents ++ rest) := by
  cases writes with
  | ended blank =>
      rw [List.append_assoc]
      exact endsValue_of_closing blank .object rest
  | member isLead =>
      rw [List.append_assoc]
      exact isLead.endsValue _

/-- Members that are written are read, by induction on how they are written. -/
theorem WritesMembers.written {first : Bool} {members : List WrittenMember}
    {contents : List UInt8} (writes : WritesMembers first members contents) {bound : Nat}
    (enough : contents.length ≤ bound) (rest : List UInt8)
    : Written bound first (contents ++ rest) members rest := by
  induction writes generalizing bound with
  | ended blank =>
      obtain ⟨bound, rfl⟩ := Nat.exists_eq_add_one.mpr (by simp at enough; omega : 0 < bound)
      refine .ended (startMember_eq_none_iff.mpr ((skipBlanks_eq_cons_iff rfl).mpr ?_))
      exact ⟨_, blank, by simp⟩
  | @member first lead name key text members behind isLead isKey isValue remaining ih =>
      have value : Spans .value (text ++ (behind ++ rest)) (behind ++ rest) :=
        isValue.spans fun _ => remaining.endsValue rest
      obtain ⟨colon, named, passed⟩ :
          ∃ colon, startMember first (lead ++ (key ++ (text ++ (behind ++ rest))))
              = .ok (some name, colon)
            ∧ passColon colon = .ok (text ++ (behind ++ rest)) :=
        exists_startMember_iff.mpr ⟨lead, key, isLead, isKey, rfl⟩
      have used : 0 < key.length := by
        cases isKey
        simp
      simp only [List.length_append] at enough
      obtain ⟨bound, rfl⟩ := Nat.exists_eq_add_one.mpr (by omega : 0 < bound)
      simp only [List.append_assoc]
      exact .member named passed value (ih (by omega))

/-- A document has members exactly if it is written as an object with them. -/
theorem objectMembers?_eq_some_iff_writes {bytes : List UInt8} {members : List WrittenMember}
    : objectMembers? bytes = some members ↔ WritesObject members bytes := by
  have solid : isBlank (byteOf '\x7b') = false := rfl
  simp only [objectMembers?_eq_some_iff, readWrittenMembers_eq_ok_iff,
    skipBlanks_eq_cons_iff solid, isEmpty_skipBlanks_iff]
  constructor
  · intro writes
    obtain ⟨behind, ⟨inner, ⟨blanks, blank, rfl⟩, written⟩, blankBehind⟩ := writes
    obtain ⟨contents, inside, rfl⟩ := written.exists_writesMembers
    exact .braced blank inside blankBehind
  · intro writes
    obtain ⟨blank, inside, blankBehind⟩ := writes
    refine ⟨_, ⟨_, ⟨_, blank, rfl⟩, inside.written ?_ _⟩, blankBehind⟩
    rw [List.length_append]
    omega

end LogIntake.Json
