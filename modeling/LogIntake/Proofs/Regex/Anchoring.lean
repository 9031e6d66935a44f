import LogIntake.Proofs.Regex.Fragments
import LogIntake.Proofs.Regex.Paths

/-! Expressions between the start and the end of the text. A path through such a program notes
the first end of the match, passes the condition that nothing stands before it, stays inside
the expressions, passes the condition that nothing stands behind it, and notes the other end.
So a match always spans the whole text.
-/

namespace LogIntake.Regex

/-- Expressions in a row between the start and the end of the text. -/
def Expr.anchored (inner : List Expr) : Expr :=
  .sequence (.look .textStart :: (inner ++ [.look .textEnd]))

/-- The instructions before those of the expression: they accept, note the end of the match, and
look for the end of the text.
-/
def closingCode : Code :=
  #[.accept, .note 1 0, .look .textEnd 1]

/-- The program around the instructions of an expression that are entered at a given one. It is
entered at its last instruction, which notes the start of the match.
-/
def enclosed (inner : Nat) (body : Code) : Program :=
  ⟨(body.push (.look .textStart inner)).push (.note 0 body.size), body.size + 1⟩

/-- Expressions in a row are added from the last one on, by induction on the first ones. -/
theorem Expr.sequenceFragment_append (first second : List Expr) (next : Nat) (code : Code)
    : sequenceFragment (first ++ second) next code
      = sequenceFragment first (sequenceFragment second next code).1
          (sequenceFragment second next code).2 := by
  induction first with
  | nil => simp [sequenceFragment]
  | cons expr rest ih => simp [sequenceFragment, ih]

/-- The instructions of the expressions stand between those of the end and those of the start.
-/
theorem Expr.anchored_program (inner : List Expr)
    : (Expr.anchored inner).program
      = enclosed (sequenceFragment inner 2 closingCode).1 (sequenceFragment inner 2 closingCode).2
      := by
  simp [Expr.anchored, Expr.program, Expr.fragment, Expr.sequenceFragment,
    Expr.sequenceFragment_append, emit, closingCode, enclosed]

section Layout

variable {inner : Nat} {body : Code}

theorem enclosed_entry
    : (enclosed inner body).code.getD (body.size + 1) .accept = .note 0 body.size := by
  have last : (body.push (.look .textStart inner)).size = body.size + 1 := Array.size_push _
  rw [enclosed, Array.getD_eq_getD_getElem?, ← last, Array.getElem?_push_size, Option.getD_some]

theorem enclosed_start
    : (enclosed inner body).code.getD body.size .accept = .look .textStart inner := by
  have second : body.size ≠ (body.push (.look .textStart inner)).size := by simp
  rw [enclosed, Array.getD_eq_getD_getElem?, Array.getElem?_push, if_neg second,
    Array.getElem?_push_size, Option.getD_some]

theorem enclosed_body {index : Nat} (inBounds : index < body.size)
    : (enclosed inner body).code.getD index .accept = body.getD index .accept := by
  have second : index ≠ (body.push (.look .textStart inner)).size := by
    rw [Array.size_push]
    omega
  rw [enclosed, Array.getD_eq_getD_getElem?, Array.getElem?_push, if_neg second,
    Array.getElem?_push, if_neg (Nat.ne_of_lt inBounds), Array.getD_eq_getD_getElem?]

theorem enclosed_closing (extension : Extends 2 closingCode inner body) {index : Nat}
    (early : index < 3)
    : (enclosed inner body).code.getD index .accept = closingCode.getD index .accept := by
  have grows : 3 ≤ body.size := extension.grows
  rw [enclosed_body (by omega), Array.getD_eq_getD_getElem?, Array.getD_eq_getD_getElem?,
    extension.keeps index early]

theorem enclosed_within (extension : Extends 2 closingCode inner body) {index : Nat}
    (late : 3 ≤ index) (inBounds : index < body.size)
    : ((enclosed inner body).code.getD index .accept).Within (Inside 2 3 body.size) := by
  have present : body[index]? = some body[index] := Array.getElem?_eq_getElem inBounds
  rw [enclosed_body inBounds, Array.getD_eq_getD_getElem?, present, Option.getD_some]
  exact extension.stays index late _ present

end Layout

/-- Nothing stands before a place exactly at the start of the text. -/
theorem textStart_holds_iff {text : List Char} {index : Nat} (inside : index ≤ text.length)
    : Look.textStart.holds (placeAt text index) = true ↔ index = 0 := by
  simp only [Look.holds, placeAt, Option.isNone_iff_eq_none, ite_eq_left_iff,
    List.getElem?_eq_none_iff]
  omega

theorem textEnd_holds_iff {text : List Char} {index : Nat} (inside : index ≤ text.length)
    : Look.textEnd.holds (placeAt text index) = true ↔ index = text.length := by
  simp only [Look.holds, placeAt, Option.isNone_iff_eq_none, List.getElem?_eq_none_iff]
  omega

-----------------------------------------------------------------------------------------
-- Every path notes the start and the end of the text only
-----------------------------------------------------------------------------------------

/-- How far a path has come, with what it has noted. -/
inductive Stage (text : List Char) (size : Nat) : Nat → Path → Prop
  | entered {index slots} (room : 2 ≤ slots.length) : Stage text size index ⟨size + 1, slots⟩
  | begun {index slots} (room : 2 ≤ slots.length) (first : slots[0]? = some (some index))
    : Stage text size index ⟨size, slots⟩
  | inside {index inst slots} (lower : 2 ≤ inst) (upper : inst < size) (room : 2 ≤ slots.length)
    (first : slots[0]? = some (some 0))
    : Stage text size index ⟨inst, slots⟩
  | finished {slots} (room : 2 ≤ slots.length) (first : slots[0]? = some (some 0))
    : Stage text size text.length ⟨1, slots⟩
  | accepted {index slots} (first : slots[0]? = some (some 0))
    (last : slots[1]? = some (some text.length))
    : Stage text size index ⟨0, slots⟩

/-- Each instruction leads from a stage to a stage. -/
theorem Stage.step {inner : Nat} {body : Code} (extension : Extends 2 closingCode inner body)
    {text : List Char} {index index' : Nat} {path path' : Path} (inText : index ≤ text.length)
    (stage : Stage text body.size index path)
    (step : Step (enclosed inner body) text index path index' path')
    : Stage text body.size index' path' := by
  have grows : 3 ≤ body.size := extension.grows
  have goesInside {target index : Nat} {slots : Slots} (inside : Inside 2 3 body.size target)
      (room : 2 ≤ slots.length) (first : slots[0]? = some (some 0))
      : Stage text body.size index ⟨target, slots⟩ := by
    rcases inside with rfl | ⟨lower, upper⟩
    · exact .inside (Nat.le_refl 2) (by omega) room first
    · exact .inside (by omega) upper room first
  cases stage with
  | entered room =>
      have expected := @enclosed_entry inner body
      cases step with
      | note inst =>
          cases inst.symm.trans expected
          exact .begun (by simpa using room)
            (List.getElem?_set_self (Nat.lt_of_lt_of_le Nat.zero_lt_two room))
      | look inst | prefer inst | avoid inst | read inst => cases inst.symm.trans expected
  | begun room first =>
      have expected := @enclosed_start inner body
      cases step with
      | look inst holds =>
          cases inst.symm.trans expected
          rw [(textStart_holds_iff inText).mp holds] at first
          exact goesInside extension.enters room first
      | note inst | prefer inst | avoid inst | read inst => cases inst.symm.trans expected
  | @inside _ inst slots lower upper room first =>
      by_cases atEnd : inst = 2
      · subst atEnd
        have expected := enclosed_closing extension (show 2 < 3 by omega)
        cases step with
        | look inst holds =>
            cases inst.symm.trans expected
            rw [(textEnd_holds_iff inText).mp holds]
            exact .finished room first
        | note inst | prefer inst | avoid inst | read inst => cases inst.symm.trans expected
      · have within := enclosed_within extension (show 3 ≤ inst by omega) upper
        cases step with
        | look inst holds =>
            rw [inst] at within
            exact goesInside within room first
        | note inst =>
            rw [inst] at within
            have notFirst := within.1
            refine goesInside within.2 (by simpa using room) ?_
            rw [List.getElem?_set_ne (by omega)]
            exact first
        | prefer inst =>
            rw [inst] at within
            exact goesInside within.1 room first
        | avoid inst =>
            rw [inst] at within
            exact goesInside within.2 room first
        | read inst =>
            rw [inst] at within
            exact goesInside within room first
  | finished room first =>
      have expected := enclosed_closing extension (show 1 < 3 by omega)
      cases step with
      | note inst =>
          cases inst.symm.trans expected
          refine .accepted ?_ (List.getElem?_set_self room)
          rw [List.getElem?_set_ne (by omega)]
          exact first
      | look inst | prefer inst | avoid inst | read inst => cases inst.symm.trans expected
  | accepted first last =>
      have expected := enclosed_closing extension (show 0 < 3 by omega)
      cases step with
      | look inst | note inst | prefer inst | avoid inst | read inst =>
          cases inst.symm.trans expected

/-- Every path is at some stage. Witness: each of its steps leads from a stage to a stage. -/
theorem Reaches.stage {inner : Nat} {body : Code} (extension : Extends 2 closingCode inner body)
    {start : Slots} (room : 2 ≤ start.length) {text : List Char} {index : Nat} {path : Path}
    (reached : Reaches (enclosed inner body) start text index path)
    : Stage text body.size index path := by
  induction reached with
  | enter => exact .entered room
  | step reached step ih => exact ih.step extension reached.inside step

/-- A stage at which a path is accepted is the last one. -/
theorem Stage.spans_of_accept {inner : Nat} {body : Code}
    (extension : Extends 2 closingCode inner body) {text : List Char} {index : Nat} {path : Path}
    (stage : Stage text body.size index path)
    (accepts : (enclosed inner body).code.getD path.inst .accept = .accept)
    : path.slots[0]? = some (some 0) ∧ path.slots[1]? = some (some text.length) := by
  cases stage with
  | entered => cases accepts.symm.trans enclosed_entry
  | begun => cases accepts.symm.trans enclosed_start
  | @inside _ inst slots lower upper =>
      by_cases atEnd : inst = 2
      · subst atEnd
        cases accepts.symm.trans (enclosed_closing extension (show 2 < 3 by omega))
      · have within := enclosed_within extension (show 3 ≤ inst by omega) upper
        rw [accepts] at within
        exact within.elim
  | finished => cases accepts.symm.trans (enclosed_closing extension (show 1 < 3 by omega))
  | accepted first last => exact ⟨first, last⟩

/-- A match of expressions between the start and the end of the text spans the whole text. -/
theorem span_of_anchored {regex : LogIntake.Regex} {inner : List Expr}
    (numbered : ∀ expr ∈ inner, expr.Numbered)
    (program : regex.program = (Expr.anchored inner).program) {text : List Char} {start : Nat}
    {found : Match} (inside : start ≤ text.length)
    (finds : regex.findFrom text start = some found)
    : found.span? 0 = some (0, text.length) := by
  obtain ⟨index, path, reached, accepts, noted⟩ := findFrom_accepts inside finds
  rw [program, Expr.anchored_program] at reached accepts
  have extension :=
    Expr.sequenceFragment_sound (fun expr member => (numbered expr member).fragment_sound) 2
      closingCode
  obtain ⟨first, last⟩ := (reached.stage extension (by simp)).spans_of_accept extension accepts
  rw [noted] at first last
  simp [Match.span?, first, last]

end LogIntake.Regex
