import LogIntake.Proofs.Json.Grammar.Scalars
import LogIntake.Proofs.Json.Records

/-! The grammar of values, apart from the passing of them. What is passed has the form of a value,
and whatever has this form is passed, however deep its brackets nest.
-/

namespace LogIntake.Json

/-- The byte that closes a bracket. -/
def Bracket.closing : Bracket → UInt8
  | .list => byteOf ']'
  | .object => byteOf '\x7d'

/-- What stands in front of a value in a bracket, behind the comma if there is one: the name of a
member with its colon.
-/
inductive IsKey : Bracket → List UInt8 → Prop
  | list : IsKey .list []
  | object {blanks name between} (blank : IsBlanks blanks) (quoted : IsQuoted name)
    (blankBetween : IsBlanks between)
    : IsKey .object (blanks ++ 0x22 :: (name ++ 0x22 :: (between ++ [byteOf ':'])))

/-- The comma in front of all values in a bracket but the first one. -/
inductive IsLead : Bool → List UInt8 → Prop
  | first : IsLead true []
  | later {blanks} (blank : IsBlanks blanks) : IsLead false (blanks ++ [byteOf ','])

/-- A value, or what is left of a bracket behind its opening byte or behind one of its values. -/
inductive Grammatical : Stretch → List UInt8 → Prop
  | scalar {blanks scalar} (blank : IsBlanks blanks) (isScalar : IsScalar scalar)
    : Grammatical .value (blanks ++ scalar)
  | bracketed {blanks bracket contents} (blank : IsBlanks blanks)
    (inside : Grammatical (.inside bracket true) contents)
    : Grammatical .value (blanks ++ bracket.opening :: contents)
  | closed {blanks bracket first} (blank : IsBlanks blanks)
    : Grammatical (.inside bracket first) (blanks ++ [bracket.closing])
  | further {bracket first lead key value remaining} (isLead : IsLead first lead)
    (isKey : IsKey bracket key) (isValue : Grammatical .value value)
    (behind : Grammatical (.inside bracket false) remaining)
    : Grammatical (.inside bracket first) (lead ++ (key ++ (value ++ remaining)))

-----------------------------------------------------------------------------------------
-- Names and commas
-----------------------------------------------------------------------------------------

theorem IsBlanks.append {first second : List UInt8} (blank : IsBlanks first)
    (blankBehind : IsBlanks second)
    : IsBlanks (first ++ second) :=
  fun byte member => (List.mem_append.mp member).elim (blank byte) (blankBehind byte)

theorem passColon_eq_ok_iff {bytes rest : List UInt8}
    : passColon bytes = .ok rest
      ↔ ∃ blanks, IsBlanks blanks ∧ bytes = blanks ++ byteOf ':' :: rest := by
  rw [← skipBlanks_eq_cons_iff rfl, passColon]
  cases skipBlanks bytes with
  | nil => simp
  | cons byte behind =>
      dsimp only
      split_ifs with colon
      · simp [colon]
      · simp [colon]

/-- A quote opens the name of a member, and the colon stands behind its text. -/
theorem skipMemberName_eq_ok_iff {bytes rest : List UInt8}
    : skipMemberName bytes = .ok rest
      ↔ ∃ quoted colon,
          skipBlanks bytes = 0x22 :: quoted
          ∧ skipString quoted = .ok colon
          ∧ passColon colon = .ok rest := by
  unfold skipMemberName
  cases skipped : skipBlanks bytes with
  | nil => simp
  | cons byte after =>
      by_cases quote : byte = 0x22
      · subst quote
        change (skipString after >>= passColon) = .ok rest ↔ _
        simp [bind_eq_ok_iff]
      · rw [show byteOf '"' = 0x22 from rfl]
        simp [quote]

theorem skipToValue_eq_ok_iff {bracket : Bracket} {bytes rest : List UInt8}
    : skipToValue bracket bytes = .ok rest ↔ ∃ key, IsKey bracket key ∧ bytes = key ++ rest := by
  cases bracket with
  | list =>
      constructor
      · intro done
        cases done
        exact ⟨[], .list, rfl⟩
      · intro formed
        obtain ⟨_, ⟨⟩, rfl⟩ := formed
        rfl
  | object =>
      refine skipMemberName_eq_ok_iff.trans ?_
      have solid : isBlank 0x22 = false := rfl
      simp only [skipBlanks_eq_cons_iff solid, skipString_eq_ok_iff, passColon_eq_ok_iff]
      constructor
      · intro formed
        obtain ⟨_, _, ⟨blanks, blank, rfl⟩, ⟨name, quoted, rfl⟩, colon⟩ := formed
        obtain ⟨between, blankBetween, rfl⟩ := colon
        exact ⟨_, .object blank quoted blankBetween, by simp⟩
      · intro formed
        obtain ⟨_, isKey, rfl⟩ := formed
        cases isKey with
        | object blank quoted blankBetween =>
            exact ⟨_, _, ⟨_, blank, by simp⟩, ⟨_, quoted, rfl⟩, _, blankBetween, rfl⟩

theorem Bracket.closes_iff {bracket : Bracket} {byte : UInt8}
    : bracket.closes byte = true ↔ byte = bracket.closing := by
  cases bracket <;> exact decide_eq_true_iff

theorem map_true_eq_ok_iff {passed : Except FormError (List UInt8)} {more : Bool}
    {rest : List UInt8}
    : passed.map (fun rest => (true, rest)) = .ok (more, rest)
      ↔ more = true ∧ passed = .ok rest := by
  cases passed with
  | error fault => simp [Except.map]
  | ok behind => simp [Except.map, eq_comm]

/-- A bracket is at its end exactly at its closing byte. -/
theorem enterValue_eq_false_iff {bracket : Bracket} {first : Bool} {bytes rest : List UInt8}
    : enterValue bracket first bytes = .ok (false, rest)
      ↔ skipBlanks bytes = bracket.closing :: rest := by
  unfold enterValue
  cases skipBlanks bytes with
  | nil => simp
  | cons byte behind =>
      simp only [Bracket.closes_iff, List.cons.injEq]
      split_ifs with closed
      · simp [closed]
      all_goals simp [closed, map_true_eq_ok_iff]

/-- The first value of a bracket stands behind its name if it has one. -/
theorem enterValue_first_eq_true_iff {bracket : Bracket} {bytes start : List UInt8}
    : enterValue bracket true bytes = .ok (true, start)
      ↔ ∃ byte after,
          skipBlanks bytes = byte :: after
          ∧ byte ≠ bracket.closing
          ∧ skipToValue bracket (byte :: after) = .ok start := by
  unfold enterValue
  cases skipBlanks bytes with
  | nil => simp
  | cons byte behind =>
      simp only [Bracket.closes_iff, List.cons.injEq]
      split_ifs with closed
      · simp [closed]
      · simp [closed, map_true_eq_ok_iff]

/-- A later value of a bracket stands behind a comma. -/
theorem enterValue_later_eq_true_iff {bracket : Bracket} {bytes start : List UInt8}
    : enterValue bracket false bytes = .ok (true, start)
      ↔ ∃ behind,
          skipBlanks bytes = byteOf ',' :: behind ∧ skipToValue bracket behind = .ok start := by
  unfold enterValue
  cases skipBlanks bytes with
  | nil => simp
  | cons byte behind =>
      have commaStays : byteOf ',' ≠ bracket.closing := by
        cases bracket <;> decide
      simp only [Bracket.closes_iff, List.cons.injEq, Bool.false_eq_true, if_false]
      split_ifs with closed comma
      · simp [closed, commaStays.symm]
      · simp [comma, map_true_eq_ok_iff]
      · simp [comma]

-----------------------------------------------------------------------------------------
-- What is passed
-----------------------------------------------------------------------------------------

theorem startValue_eq_none_iff {bytes rest : List UInt8}
    : startValue bytes = .ok (none, rest) ↔ skipScalar (skipBlanks bytes) = .ok rest := by
  unfold startValue
  cases skipBlanks bytes with
  | nil => simp [skipScalar]
  | cons byte after =>
      dsimp only
      split_ifs with list object
      · subst list
        exact iff_of_false (by simp) fun passed => by cases passed
      · subst object
        exact iff_of_false (by simp) fun passed => by cases passed
      · cases skipScalar (byte :: after) <;> simp [Except.map]

theorem startValue_eq_some_iff {bracket : Bracket} {bytes inner : List UInt8}
    : startValue bytes = .ok (some bracket, inner)
      ↔ skipBlanks bytes = bracket.opening :: inner := by
  refine ⟨fun opens => ?_, startValue_of_opening⟩
  unfold startValue at opens
  split at opens
  case h_1 => cases opens
  case h_2 byte after skipped =>
    split_ifs at opens with list object
    · cases opens
      exact skipped.trans (by rw [list]; rfl)
    · cases opens
      exact skipped.trans (by rw [object]; rfl)
    · cases passed : skipScalar (byte :: after) <;> simp [passed, Except.map] at opens

/-- Blanks may stand in front of a value. -/
theorem Grammatical.blanks_append {blanks text : List UInt8} (blank : IsBlanks blanks)
    (isValue : Grammatical .value text)
    : Grammatical .value (blanks ++ text) := by
  cases isValue with
  | scalar blankBehind isScalar =>
      rw [← List.append_assoc]
      exact .scalar (blank.append blankBehind) isScalar
  | bracketed blankBehind inside =>
      rw [← List.append_assoc]
      exact .bracketed (blank.append blankBehind) inside

theorem IsKey.blanks_append {blanks key : List UInt8} (blank : IsBlanks blanks)
    (isKey : IsKey .object key)
    : IsKey .object (blanks ++ key) := by
  cases isKey with
  | object blankBehind quoted blankBetween =>
      rw [← List.append_assoc]
      exact .object (blank.append blankBehind) quoted blankBetween

theorem exists_blanks (bytes : List UInt8)
    : ∃ blanks, IsBlanks blanks ∧ bytes = blanks ++ skipBlanks bytes :=
  ⟨_, isBlanks_takeWhile bytes, List.takeWhile_append_dropWhile.symm⟩

/-- Whatever is passed has the form of a stretch, by induction on its extent. -/
theorem Spans.exists_grammatical {stretch : Stretch} {bytes rest : List UInt8}
    (spans : Spans stretch bytes rest)
    : ∃ taken, Grammatical stretch taken ∧ bytes = taken ++ rest := by
  induction spans with
  | @scalar bytes rest passed =>
      obtain ⟨blanks, blank, whole⟩ := exists_blanks bytes
      obtain ⟨scalar, isScalar, skipped⟩ :=
        exists_isScalar_of_skipScalar (startValue_eq_none_iff.mp passed)
      exact ⟨_, .scalar blank isScalar, by rw [whole, skipped, List.append_assoc]⟩
  | @bracketed bytes inner rest bracket opens _ ih =>
      obtain ⟨contents, inside, rfl⟩ := ih
      obtain ⟨blanks, blank, whole⟩ := exists_blanks bytes
      refine ⟨_, .bracketed blank inside, ?_⟩
      rw [whole, startValue_eq_some_iff.mp opens, List.append_assoc, List.cons_append]
  | @closed bytes rest bracket first closes =>
      obtain ⟨blanks, blank, whole⟩ := exists_blanks bytes
      refine ⟨_, .closed blank, ?_⟩
      rw [whole, enterValue_eq_false_iff.mp closes, List.append_assoc, List.singleton_append]
  | @further bytes start middle rest bracket first enters _ _ valueHyp remainingHyp =>
      obtain ⟨value, isValue, rfl⟩ := valueHyp
      obtain ⟨remaining, behind, rfl⟩ := remainingHyp
      obtain ⟨blanks, blank, whole⟩ := exists_blanks bytes
      cases first with
      | false =>
          obtain ⟨after, comma, arrives⟩ := enterValue_later_eq_true_iff.mp enters
          obtain ⟨key, isKey, rfl⟩ := skipToValue_eq_ok_iff.mp arrives
          exact ⟨_, .further (.later blank) isKey isValue behind, by rw [whole, comma]; simp⟩
      | true =>
          obtain ⟨byte, after, skipped, _, arrives⟩ := enterValue_first_eq_true_iff.mp enters
          rw [skipped] at whole
          obtain ⟨key, isKey, split⟩ := skipToValue_eq_ok_iff.mp arrives
          rw [split] at whole
          -- The blanks in front belong to the name, or to the value if there is no name.
          cases bracket with
          | list =>
              cases isKey
              exact ⟨_, .further .first .list (isValue.blanks_append blank) behind, by simp [whole]⟩
          | object =>
              exact ⟨_, .further .first (isKey.blanks_append blank) isValue behind, by simp [whole]⟩

-----------------------------------------------------------------------------------------
-- What has the form of a value
-----------------------------------------------------------------------------------------

theorem startValue_of_blanks {blanks bytes rest : List UInt8} (blank : IsBlanks blanks)
    (passed : skipScalar bytes = .ok rest)
    : startValue (blanks ++ bytes) = .ok (none, rest) := by
  rw [startValue_eq_none_iff, blank.skipBlanks_append]
  cases bytes with
  | nil => cases passed
  | cons byte after =>
      have solid : isBlank byte = false := by
        by_contra blankByte
        rcases isBlank_iff.mp (Bool.eq_true_of_not_eq_false blankByte) with rfl | rfl | rfl | rfl
        all_goals cases passed
      rw [skipBlanks_cons solid, passed]

/-- A byte that carries no number on may stand behind blanks, which carry none on either. -/
theorem endsValue_of_blanks {blanks rest : List UInt8} {byte : UInt8} (blank : IsBlanks blanks)
    (ends : EndsValue [byte])
    : EndsValue (blanks ++ byte :: rest) := by
  cases blanks with
  | nil => exact ends
  | cons first blanks =>
      intro _ head
      cases head
      rcases isBlank_iff.mp (blank first List.mem_cons_self) with rfl | rfl | rfl | rfl
      all_goals decide

theorem endsValue_of_closing {blanks : List UInt8} (blank : IsBlanks blanks) (bracket : Bracket)
    (rest : List UInt8)
    : EndsValue (blanks ++ bracket.closing :: rest) := by
  refine endsValue_of_blanks blank ?_
  cases bracket with
  | list =>
      intro _ head
      cases head
      decide
  | object =>
      intro _ head
      cases head
      decide

theorem IsLead.endsValue {lead : List UInt8} (isLead : IsLead false lead) (rest : List UInt8)
    : EndsValue (lead ++ rest) := by
  cases isLead with
  | later blank =>
      rw [List.append_assoc]
      refine endsValue_of_blanks blank ?_
      intro _ head
      cases head
      decide

/-- What is left of a bracket behind a value carries no number on. -/
theorem Grammatical.endsValue {bracket : Bracket} {remaining : List UInt8}
    (behind : Grammatical (.inside bracket false) remaining) (rest : List UInt8)
    : EndsValue (remaining ++ rest) := by
  cases behind with
  | closed blank =>
      rw [List.append_assoc]
      exact endsValue_of_closing blank bracket rest
  | further isLead =>
      rw [List.append_assoc]
      exact isLead.endsValue _

/-- In a list that is just opened, passing comes to a value behind its blanks. -/
theorem Spans.enterList {bytes rest : List UInt8} (spans : Spans .value bytes rest)
    : ∃ start, enterValue .list true bytes = .ok (true, start) ∧ Spans .value start rest := by
  have again : Spans .value (skipBlanks bytes) rest := by
    cases spans with
    | scalar passed => exact .scalar ((startValue_skipBlanks bytes).trans passed)
    | bracketed opens inside => exact .bracketed ((startValue_skipBlanks bytes).trans opens) inside
  obtain ⟨opened, inner, started⟩ : ∃ opened inner,
      startValue (skipBlanks bytes) = .ok (opened, inner) := by
    cases again with
    | scalar passed => exact ⟨_, _, passed⟩
    | bracketed opens => exact ⟨_, _, opens⟩
  refine ⟨skipBlanks bytes, enterValue_first_eq_true_iff.mpr ?_, again⟩
  cases skipped : skipBlanks bytes with
  | nil =>
      rw [skipped] at started
      cases started
  | cons byte after =>
      refine ⟨byte, after, rfl, ?_, rfl⟩
      intro equal
      subst equal
      rw [skipped] at started
      cases started

/-- In an object that is just opened, passing comes to a value behind its name. -/
theorem IsKey.enterObject {key : List UInt8} (isKey : IsKey .object key) (bytes : List UInt8)
    : enterValue .object true (key ++ bytes) = .ok (true, bytes) := by
  cases isKey with
  | @object blanks name between blank quoted blankBetween =>
      have named : IsKey .object ([] ++ 0x22 :: (name ++ 0x22 :: (between ++ [byteOf ':']))) :=
        .object nofun quoted blankBetween
      have skipped (tail : List UInt8) : skipBlanks (blanks ++ 0x22 :: tail) = 0x22 :: tail :=
        (skipBlanks_eq_cons_iff rfl).mpr ⟨blanks, blank, rfl⟩
      rw [List.append_assoc, List.cons_append]
      exact enterValue_first_eq_true_iff.mpr
        ⟨_, _, skipped _, by decide, skipToValue_eq_ok_iff.mpr ⟨_, named, rfl⟩⟩

/-- Whatever has the form of a stretch is passed, in front of what does not carry it on. The
induction is on the form.
-/
theorem Grammatical.spans {stretch : Stretch} {taken : List UInt8}
    (grammatical : Grammatical stretch taken) {rest : List UInt8}
    (ends : stretch = .value → EndsValue rest)
    : Spans stretch (taken ++ rest) rest := by
  induction grammatical generalizing rest with
  | scalar blank isScalar =>
      rw [List.append_assoc]
      exact .scalar (startValue_of_blanks blank (isScalar.skipScalar (ends rfl)))
  | @bracketed blanks bracket contents blank inside ih =>
      have solid : isBlank bracket.opening = false := by
        cases bracket <;> rfl
      have opens : skipBlanks (blanks ++ bracket.opening :: (contents ++ rest))
          = bracket.opening :: (contents ++ rest) :=
        (skipBlanks_eq_cons_iff solid).mpr ⟨blanks, blank, rfl⟩
      rw [List.append_assoc, List.cons_append]
      exact .bracketed (startValue_of_opening opens) (ih nofun)
  | @closed blanks bracket first blank =>
      have solid : isBlank bracket.closing = false := by
        cases bracket <;> rfl
      rw [List.append_assoc, List.singleton_append]
      exact .closed (enterValue_eq_false_iff.mpr ((skipBlanks_eq_cons_iff solid).mpr
        ⟨blanks, blank, rfl⟩))
  | @further bracket first lead key value remaining isLead isKey _ behind valueHyp behindHyp =>
      have valueSpans := valueHyp fun _ => behind.endsValue rest
      have remainingSpans : Spans (.inside bracket false) (remaining ++ rest) rest :=
        behindHyp nofun
      simp only [List.append_assoc]
      cases isLead with
      | later blank =>
          rw [List.append_assoc, List.singleton_append]
          refine .further ?_ valueSpans remainingSpans
          refine enterValue_later_eq_true_iff.mpr ⟨_, (skipBlanks_eq_cons_iff rfl).mpr
            ⟨_, blank, rfl⟩, ?_⟩
          exact skipToValue_eq_ok_iff.mpr ⟨key, isKey, rfl⟩
      | first =>
          cases bracket with
          | list =>
              cases isKey
              obtain ⟨start, enters, valueSpans⟩ := valueSpans.enterList
              exact .further enters valueSpans remainingSpans
          | object => exact .further (isKey.enterObject _) valueSpans remainingSpans

end LogIntake.Json
