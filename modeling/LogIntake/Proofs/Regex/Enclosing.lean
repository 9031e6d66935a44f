import LogIntake.Proofs.Regex.Followed.Pattern
import LogIntake.Proofs.Regex.Numbering

/-! Reading a pattern that was put between anchors. If the text reads by itself, then the group
that is opened before it is closed behind it, and the two anchors stand around all of it.
-/

namespace LogIntake.Regex

/-- What stands before the text of a pattern. -/
def opening : List Char :=
  ['^', '(', '?', ':']

/-- The group that the opening opens, behind the start of the line. -/
def enclosing : OpenGroup :=
  ⟨.options ⟨[], []⟩, [.assertion .lineStart], [], false⟩

theorem readParts_opening (fuel : Nat) (text : List Char)
    : readParts (fuel + 2) .start (opening ++ text)
      = readParts fuel (Progress.start.within enclosing) text :=
  rfl

/-- A pattern that reads by itself is the only thing between the anchors. Witness: the closing
is not hidden in a comment, since then the group would not be closed.
-/
theorem parse_enclosed {text : List Char} {alone reading : Reading}
    (readAlone : parse text = .ok alone)
    (read : parse (opening ++ (text ++ closing)) = .ok reading)
    : reading.pattern
      = .sequence
          [.assertion .lineStart, .group (.options ⟨[], []⟩) alone.pattern,
            .assertion .lineEnd] := by
  obtain ⟨progress, parts, closed, _, rfl⟩ := parse_eq_ok_iff.mp readAlone
  obtain ⟨final, enclosedParts, enclosedClosed, _, rfl⟩ := parse_eq_ok_iff.mp read
  have size : (opening ++ (text ++ closing)).length + 1 = text.length + 5 + 2 := by
    simp [opening, closing]
  rw [size, readParts_opening] at enclosedParts
  have enough : text.length + 1 + 2 ≤ text.length + 5 := by omega
  rcases readParts_within enough enclosing rfl .closed parts closed with all | hidden
  · cases enclosedParts.symm.trans all
    rfl
  · cases enclosedParts.symm.trans hidden
    simp [Progress.within] at enclosedClosed

end LogIntake.Regex
