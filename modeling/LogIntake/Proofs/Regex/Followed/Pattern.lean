import LogIntake.Proofs.Regex.Followed.Class
import LogIntake.Regex.Parser

/-! Reading a pattern inside one more group. Each part of the pattern is read as it is without
the group, which stays at the bottom of the open ones, until the closing behind the text closes
it at last.
-/

namespace LogIntake.Regex

namespace Progress

/-- The progress inside one more group, around all groups that are open. -/
def within (progress : Progress) (outermost : OpenGroup) : Progress :=
  { progress with opened := progress.opened ++ [outermost] }

variable {progress next : Progress} (outermost : OpenGroup)

theorem closeGroup_within (closed : progress.closeGroup = .ok next)
    : (progress.within outermost).closeGroup = .ok (next.within outermost) := by
  cases shape : progress.opened with
  | nil =>
      rw [closeGroup, shape] at closed
      cases closed
  | cons group opened =>
      rw [closeGroup, shape] at closed
      cases closed
      simp [closeGroup, within, shape, inner]

theorem repeatLast_within {min : Nat} {max : Option Nat} {greedy : Bool}
    (repeated : progress.repeatLast min max greedy = .ok next)
    : (progress.within outermost).repeatLast min max greedy = .ok (next.within outermost) := by
  unfold repeatLast at repeated ⊢
  dsimp only [within]
  split at repeated
  case h_1 item items shape =>
    split at repeated
    case isTrue repeatable =>
      cases repeated
      rw [if_pos repeatable]
    case isFalse => cases repeated
  case h_2 => cases repeated

theorem openCapture_within {name : Option String} (opened : progress.openCapture name = .ok next)
    : (progress.within outermost).openCapture name = .ok (next.within outermost) := by
  cases name with
  | none =>
      cases opened
      rfl
  | some name =>
      cases known : (progress.names.lookup name).isSome with
      | true => simp [openCapture, known] at opened
      | false =>
          simp only [openCapture, known, Bool.false_eq_true, if_false, Except.ok.injEq] at opened
          simp only [openCapture, within, known, Bool.false_eq_true, if_false, ← opened, openGroup,
            List.cons_append]

end Progress

-----------------------------------------------------------------------------------------
-- Opening a group, with or without a name or flags
-----------------------------------------------------------------------------------------

theorem takeGroupName_closed {name : List Char} (unmarked : '>' ∉ name) (after : List Char)
    : takeGroupName (name ++ '>' :: after)
      = match name with
        | [] => .error .invalidGroupName
        | c :: rest =>
            if isGroupNameChar true c && rest.all (isGroupNameChar false) then
              .ok (String.ofList name, after)
            else .error .invalidGroupName := by
  have all := takeWhile_unmarked unmarked ('>' :: after)
  rw [List.takeWhile_cons_of_neg (by simp), List.append_nil] at all
  unfold takeGroupName
  rw [all]
  dsimp only
  rw [List.drop_left]
  cases name <;> rfl

theorem takeGroupName_open {text : List Char} (unmarked : '>' ∉ text)
    : takeGroupName text = .error .invalidGroupName := by
  have all := takeWhile_unmarked unmarked []
  rw [List.append_nil, List.takeWhile_nil, List.append_nil] at all
  unfold takeGroupName
  rw [all]
  dsimp only
  rw [List.drop_length]
  cases text <;> rfl

theorem takeGroupName_steady : Steady takeGroupName takeGroupName := by
  intro text longer value rest followed taken
  by_cases marked : '>' ∈ text
  · obtain ⟨name, after, rfl, unmarked⟩ := List.eq_append_cons_of_mem marked
    obtain ⟨longerAfter, rfl, follows⟩ := followed.of_mark
    rw [takeGroupName_closed unmarked] at taken
    rw [takeGroupName_closed unmarked]
    cases name with
    | nil => cases taken
    | cons c name =>
        dsimp only at taken ⊢
        split at taken
        case isTrue valid =>
          cases taken
          rw [if_pos valid]
          exact ⟨longerAfter, rfl, follows⟩
        case isFalse => cases taken
  · rw [takeGroupName_open marked] at taken
    cases taken

/-- Opens a group with a name. -/
def openNamed (progress : Progress) (text : List Char) : Except Fault (Progress × List Char) := do
  let (name, rest) ← takeGroupName text
  let progress ← progress.openCapture (some name)
  return (progress, rest)

/-- Opens a group with flags, or sets flags for the rest of the current one. -/
def openFlags (progress : Progress) (text : List Char) : Except Fault (Progress × List Char) := do
  let ((flags, mark), rest) ← takeFlags [] text
  let change := flagChange flags
  let extended := (change.state? .extended).getD progress.extended
  if mark = ')' then
    if change.isEmpty then throw .nothingToRepeat
    return ({ progress with extended }.push (.options change), rest)
  else return (progress.openGroup (.options change) extended, rest)

section OpenParenthesis

variable {progress : Progress} {text rest : List Char}

theorem openParenthesis_plain (shape : skipLayout progress.extended text = rest)
    (plain : rest.head? ≠ some '?')
    : openParenthesis progress text = (do return (← progress.openCapture none, rest)) := by
  unfold openParenthesis
  rw [shape]
  split
  case h_8 => rfl
  all_goals exact absurd rfl plain

theorem openParenthesis_named
    (shape : skipLayout progress.extended text = '?' :: 'P' :: '<' :: rest)
    : openParenthesis progress text = openNamed progress rest := by
  unfold openParenthesis
  rw [shape]
  rfl

theorem openParenthesis_shortNamed
    (shape : skipLayout progress.extended text = '?' :: '<' :: rest)
    (notBehind : rest.head? ≠ some '=') (notNotBehind : rest.head? ≠ some '!')
    : openParenthesis progress text = openNamed progress rest := by
  unfold openParenthesis
  rw [shape]
  split
  case h_3 same =>
    cases same
    exact absurd rfl notBehind
  case h_4 same =>
    cases same
    exact absurd rfl notNotBehind
  case h_6 same =>
    cases same
    rfl
  case h_7 unnamed same =>
    cases same
    exact (unnamed rest rfl).elim
  all_goals simp_all

theorem openParenthesis_flags (shape : skipLayout progress.extended text = '?' :: rest)
    (notAhead : rest.head? ≠ some '=') (notNotAhead : rest.head? ≠ some '!')
    (unnamed : rest.head? ≠ some '<')
    (notNamed : ∀ tail, rest = 'P' :: tail → tail.head? ≠ some '<')
    : openParenthesis progress text = openFlags progress rest := by
  unfold openParenthesis
  rw [shape]
  split
  case h_7 same =>
    cases same
    rfl
  all_goals simp_all

end OpenParenthesis

/-- A step of reading does inside one more group what it does without, and leaves the same. -/
def StepsWithin (step : Progress → List Char → Except Fault (Progress × List Char)) : Prop :=
  ∀ ⦃progress next text longer rest⦄ (outermost : OpenGroup),
    Followed text longer → step progress text = .ok (next, rest) →
    ∃ rest',
      step (progress.within outermost) longer = .ok (next.within outermost, rest')
      ∧ Followed rest rest'

theorem openNamed_within : StepsWithin openNamed := by
  intro progress next text longer rest outermost followed opened
  obtain ⟨⟨name, left⟩, named, opened⟩ := bind_eq_ok_iff.mp opened
  obtain ⟨longerLeft, longerNamed, follows⟩ := takeGroupName_steady followed named
  obtain ⟨progress', capture, returned⟩ := bind_eq_ok_iff.mp opened
  cases returned
  have longerCapture := Progress.openCapture_within outermost capture
  refine ⟨longerLeft, bind_eq_ok_iff.mpr ⟨_, longerNamed, ?_⟩, follows⟩
  exact bind_eq_ok_iff.mpr ⟨_, longerCapture, rfl⟩

theorem openFlags_within : StepsWithin openFlags := by
  intro progress next text longer rest outermost followed opened
  obtain ⟨⟨⟨flags, mark⟩, left⟩, taken, opened⟩ := bind_eq_ok_iff.mp opened
  obtain ⟨longerLeft, longerTaken, follows⟩ := takeFlags_steady [] followed taken
  refine ⟨longerLeft, ?_, ?_⟩
  · refine bind_eq_ok_iff.mpr ⟨_, longerTaken, ?_⟩
    dsimp only at opened ⊢
    split at opened
    case isTrue closes =>
      rw [if_pos closes]
      split at opened
      case isTrue => cases opened
      case isFalse nonempty =>
        rw [if_neg nonempty]
        cases opened
        rfl
    case isFalse opens =>
      rw [if_neg opens]
      cases opened
      rfl
  · dsimp only at opened
    split at opened
    case isTrue =>
      split at opened
      case isTrue => cases opened
      case isFalse =>
        cases opened
        exact follows
    case isFalse =>
      cases opened
      exact follows

theorem openParenthesis_within : StepsWithin openParenthesis := by
  intro progress next text longer rest outermost followed opened
  have skipped := followed.skipLayout progress.extended
  rcases skipped.starts '?' (by decide) with
    ⟨inner, longerInner, shape, longerSkipped, tail⟩ | ⟨plain, longerPlain⟩
  · have longerShape
        : skipLayout (progress.within outermost).extended longer = '?' :: longerInner :=
      longerSkipped
    -- A group that looks around fails without the outermost group, so it is not opened.
    rcases tail.starts '=' (by decide) with ⟨_, _, rfl, -, -⟩ | ⟨ahead, longerAhead⟩
    · rw [openParenthesis, shape] at opened
      cases opened
    rcases tail.starts '!' (by decide) with ⟨_, _, rfl, -, -⟩ | ⟨notAhead, longerNotAhead⟩
    · rw [openParenthesis, shape] at opened
      cases opened
    rcases tail.starts '<' (by decide) with
      ⟨name, longerName, rfl, rfl, nameTail⟩ | ⟨short, longerShort⟩
    · rcases nameTail.starts '=' (by decide) with ⟨_, _, rfl, -, -⟩ | ⟨behind, longerBehind⟩
      · rw [openParenthesis, shape] at opened
        cases opened
      rcases nameTail.starts '!' (by decide) with
        ⟨_, _, rfl, -, -⟩ | ⟨notBehind, longerNotBehind⟩
      · rw [openParenthesis, shape] at opened
        cases opened
      rw [openParenthesis_shortNamed shape behind notBehind] at opened
      rw [openParenthesis_shortNamed longerShape longerBehind longerNotBehind]
      exact openNamed_within outermost nameTail opened
    by_cases named : ∃ name, inner = 'P' :: '<' :: name
    · obtain ⟨name, rfl⟩ := named
      obtain ⟨_, rfl, bracketTail⟩ := tail.of_cons
      obtain ⟨longerName, rfl, nameTail⟩ := bracketTail.of_cons
      rw [openParenthesis_named shape] at opened
      rw [openParenthesis_named longerShape]
      exact openNamed_within outermost nameTail opened
    · have unnamed : ∀ name, inner = 'P' :: name → name.head? ≠ some '<' := by
        rintro name rfl bracket
        obtain ⟨name, rfl⟩ := List.head?_eq_some_iff.mp bracket
        exact named ⟨name, rfl⟩
      have longerUnnamed : ∀ name, longerInner = 'P' :: name → name.head? ≠ some '<' := by
        rintro longerName rfl
        cases inner with
        | nil => rcases tail.of_nil with impossible | impossible <;> cases impossible
        | cons c name =>
            obtain ⟨_, same, nameTail⟩ := tail.of_cons
            cases same
            exact nameTail.head?_ne (unnamed name rfl) (by decide)
      rw [openParenthesis_flags shape ahead notAhead short unnamed] at opened
      rw [openParenthesis_flags longerShape longerAhead longerNotAhead longerShort longerUnnamed]
      exact openFlags_within outermost tail opened
  · rw [openParenthesis_plain rfl plain] at opened
    obtain ⟨progress', capture, returned⟩ := bind_eq_ok_iff.mp opened
    cases returned
    have longerCapture := Progress.openCapture_within outermost capture
    have longerShape
        : skipLayout (progress.within outermost).extended longer
          = skipLayout progress.extended longer :=
      rfl
    refine ⟨_, ?_, skipped⟩
    rw [openParenthesis_plain longerShape longerPlain]
    exact bind_eq_ok_iff.mpr ⟨_, longerCapture, rfl⟩

-----------------------------------------------------------------------------------------
-- Repetitions of the last item
-----------------------------------------------------------------------------------------

/-- Takes the upper bound of a counted repetition behind the lower one. -/
def takeUpperBound (extended : Bool) (min : Nat) : Scan (Option Nat) := fun text =>
  match text with
  | ',' :: rest =>
      match skipLayout extended rest with
      | '\x7d' :: _ => pure (none, skipLayout extended rest)
      | rest => do
          let (max, rest) ← takeNumber extended rest
          pure (some max, rest)
  | _ => pure (some min, text)

/-- Takes the closing brace behind the bounds of a counted repetition. -/
def closeBounds (min : Nat) (max : Option Nat) : Scan (Nat × Option Nat) := fun text =>
  match text with
  | '\x7d' :: rest =>
      if max.all (min ≤ ·) then return ((min, max), rest) else throw .invalidCount
  | _ => throw .invalidCount

theorem takeUpperBound_other {text : List Char} (other : text.head? ≠ some ',') (extended : Bool)
    (min : Nat)
    : takeUpperBound extended min text = .ok (some min, text) := by
  unfold takeUpperBound
  split
  case h_1 => exact absurd rfl other
  case h_2 => rfl

theorem takeUpperBound_bounded {extended : Bool} {inner : List Char}
    (bounded : (skipLayout extended inner).head? ≠ some '\x7d') (min : Nat)
    : takeUpperBound extended min (',' :: inner)
      = takeNumber extended (skipLayout extended inner) >>= fun (max, rest) =>
          pure (some max, rest) := by
  rw [takeUpperBound]
  split
  case h_1 shape =>
    rw [shape] at bounded
    exact absurd rfl bounded
  case h_2 => rfl

/-- Counted bounds are a number, an upper bound and a closing brace. -/
theorem takeBounds_eq (extended : Bool) (text : List Char)
    : takeBounds extended text
      = takeNumber extended (skipLayout extended text) >>= fun (min, text) =>
          takeUpperBound extended min text >>= fun (max, text) => closeBounds min max text := by
  unfold takeBounds
  congr 1
  funext ⟨min, left⟩
  dsimp only
  by_cases comma : left.head? = some ','
  · obtain ⟨inner, rfl⟩ := List.head?_eq_some_iff.mp comma
    split
    case h_2 other => exact (other inner rfl).elim
    case h_1 same =>
      cases same
      split
      case h_1 shape =>
        have unbounded : takeUpperBound extended min (',' :: inner)
            = .ok (none, skipLayout extended inner) := by
          rw [takeUpperBound, shape]
          rfl
        rw [unbounded]
        rfl
      case h_2 other =>
        have bounded : (skipLayout extended inner).head? ≠ some '\x7d' := by
          intro brace
          obtain ⟨behind, shape⟩ := List.head?_eq_some_iff.mp brace
          exact other behind shape
        rw [takeUpperBound_bounded bounded]
        simp only [bind_assoc, pure_bind]
        rfl
  · rw [takeUpperBound_other comma]
    split
    case h_1 => exact absurd rfl comma
    case h_2 => rfl

theorem takeUpperBound_steady (extended : Bool) (min : Nat)
    : Steady (takeUpperBound extended min) (takeUpperBound extended min) := by
  intro text longer max rest followed taken
  rcases followed.starts ',' (by decide) with
    ⟨inner, longerInner, rfl, rfl, tail⟩ | ⟨other, longerOther⟩
  · have skipped := tail.skipLayout extended
    rcases skipped.starts '\x7d' (by decide) with
      ⟨left, longerLeft, shape, longerShape, leftTail⟩ | ⟨bounded, longerBounded⟩
    · rw [takeUpperBound, shape] at taken
      cases taken
      refine ⟨'\x7d' :: longerLeft, ?_, leftTail.cons _⟩
      rw [takeUpperBound, longerShape]
      rfl
    · rw [takeUpperBound_bounded bounded] at taken
      rw [takeUpperBound_bounded longerBounded]
      refine (takeNumber_steady extended).bind ?_ skipped taken
      exact fun max => Steady.of_value (some max)
  · rw [takeUpperBound_other other] at taken
    cases taken
    exact ⟨longer, takeUpperBound_other longerOther extended min, followed⟩

theorem closeBounds_steady (min : Nat) (max : Option Nat)
    : Steady (closeBounds min max) (closeBounds min max) := by
  intro text longer value rest followed taken
  unfold closeBounds at taken
  split at taken
  case h_1 inner =>
    obtain ⟨longerInner, rfl, tail⟩ := followed.of_cons
    split at taken
    case isTrue ordered =>
      cases taken
      exact ⟨longerInner, if_pos ordered, tail⟩
    case isFalse => cases taken
  case h_2 => cases taken

theorem takeBounds_steady (extended : Bool)
    : Steady (takeBounds extended) (takeBounds extended) := by
  intro text longer value rest followed taken
  rw [takeBounds_eq] at taken ⊢
  refine (takeNumber_steady extended).bind ?_ (followed.skipLayout extended) taken
  exact fun min => (takeUpperBound_steady extended min).bind (closeBounds_steady min)

/-- The closing does not start with a question mark. -/
theorem takeLaziness_followed {text longer : List Char} (followed : Followed text longer)
    : (takeLaziness text).1 = (takeLaziness longer).1
      ∧ Followed (takeLaziness text).2 (takeLaziness longer).2 := by
  have greedy {text : List Char} (other : text.head? ≠ some '?')
      : takeLaziness text = (true, text) := by
    unfold takeLaziness
    split
    case h_1 => exact absurd rfl other
    case h_2 => rfl
  rcases followed.starts '?' (by decide) with ⟨_, _, rfl, rfl, tail⟩ | ⟨other, longerOther⟩
  · exact ⟨rfl, tail⟩
  · rw [greedy other, greedy longerOther]
    exact ⟨rfl, followed⟩

theorem repeatLast_followed {progress next : Progress} (outermost : OpenGroup)
    {text longer rest : List Char} (followed : Followed text longer) {min : Nat}
    {max : Option Nat}
    (repeated
      : (do
          let (greedy, rest) := takeLaziness text
          let progress ← progress.repeatLast min max greedy
          return (progress, rest))
        = .ok (next, rest))
    : ∃ rest',
        (do
          let (greedy, rest) := takeLaziness longer
          let progress ← (progress.within outermost).repeatLast min max greedy
          return (progress, rest))
        = .ok (next.within outermost, rest')
        ∧ Followed rest rest' := by
  obtain ⟨laziness, follows⟩ := takeLaziness_followed followed
  dsimp only at repeated ⊢
  rw [laziness] at repeated
  obtain ⟨progress', repetition, returned⟩ := bind_eq_ok_iff.mp repeated
  cases returned
  have longerRepetition := Progress.repeatLast_within outermost repetition
  exact ⟨_, bind_eq_ok_iff.mpr ⟨_, longerRepetition, rfl⟩, follows⟩

-----------------------------------------------------------------------------------------
-- The parts of a pattern and the end of its group
-----------------------------------------------------------------------------------------

theorem readPart_within (c : Char) : StepsWithin (readPart · c) := by
  intro progress next text longer rest outermost followed
  unfold readPart
  dsimp only
  split
  case h_1 => exact openParenthesis_within outermost followed
  case h_2 =>
    intro read
    obtain ⟨progress', closed, returned⟩ := bind_eq_ok_iff.mp read
    cases returned
    have longerClosed := Progress.closeGroup_within outermost closed
    exact ⟨longer, bind_eq_ok_iff.mpr ⟨_, longerClosed, rfl⟩, followed⟩
  case h_3 =>
    rintro ⟨⟩
    exact ⟨longer, rfl, followed⟩
  case h_4 =>
    intro read
    obtain ⟨⟨item, left⟩, taken, returned⟩ := bind_eq_ok_iff.mp read
    cases returned
    obtain ⟨longerRest, longerTaken, follows⟩ := takeClass_steady _ followed taken
    exact ⟨longerRest, bind_eq_ok_iff.mpr ⟨_, longerTaken, rfl⟩, follows⟩
  case h_5 | h_6 | h_7 => exact repeatLast_followed outermost followed
  case h_8 =>
    intro read
    obtain ⟨⟨⟨min, max⟩, left⟩, bounds, read⟩ := bind_eq_ok_iff.mp read
    obtain ⟨longerLeft, longerBounds, follows⟩ := takeBounds_steady _ followed bounds
    obtain ⟨longerRest, repetition, restFollows⟩ :=
      repeatLast_followed outermost (follows.skipLayout _) read
    exact ⟨longerRest, bind_eq_ok_iff.mpr ⟨_, longerBounds, repetition⟩, restFollows⟩
  case h_9 =>
    intro read
    obtain ⟨⟨item, left⟩, taken, returned⟩ := bind_eq_ok_iff.mp read
    cases returned
    obtain ⟨longerRest, longerTaken, follows⟩ := takeEscape_steady _ followed taken
    exact ⟨longerRest, bind_eq_ok_iff.mpr ⟨_, longerTaken, rfl⟩, follows⟩
  case h_10 | h_11 | h_12 | h_13 =>
    rintro ⟨⟩
    exact ⟨longer, rfl, followed⟩

/-- The group around everything that was read, and the dollar sign behind it. -/
def Progress.enclose (progress : Progress) (outermost : OpenGroup) : Progress where
  items := .assertion .lineEnd :: .group outermost.kind progress.inner :: outermost.items
  branches := outermost.branches
  opened := []
  extended := outermost.extended
  captures := progress.captures
  names := progress.names

/-- The closing closes the outermost group if no other one is open. -/
theorem readParts_closing {progress : Progress} {outermost : OpenGroup} {fuel : Nat}
    (closed : progress.opened = []) (plain : outermost.extended = false)
    : readPart (progress.within outermost) ')' ['$'] >>= (fun (next, rest) =>
          readParts (fuel + 2) next rest)
      = .ok (progress.enclose outermost) := by
  have closes : (progress.within outermost).closeGroup
      = .ok { progress with
              items := .group outermost.kind progress.inner :: outermost.items
              branches := outermost.branches
              opened := []
              extended := outermost.extended } := by
    simp only [Progress.closeGroup, Progress.within, closed, List.nil_append]
    rfl
  simp only [readPart, closes, bind, Except.bind, pure, Except.pure]
  simp [readParts, plain, skipLayout, readPart, Progress.push, Progress.enclose, bind, Except.bind,
    pure, Except.pure]

/-- The same parts are read inside one more group, which the closing closes in the end unless a
comment hides the closing. Witness: induction on the bound of the parts; the outermost group is
never closed earlier, because without it that would have failed.
-/
theorem readParts_within {fuel longerFuel : Nat} (enough : fuel + 2 ≤ longerFuel)
    {progress final : Progress} (outermost : OpenGroup) (plain : outermost.extended = false)
    {text longer : List Char} (followed : Followed text longer)
    (read : readParts fuel progress text = .ok final) (closed : final.opened = [])
    : readParts longerFuel (progress.within outermost) longer = .ok (final.enclose outermost)
      ∨ readParts longerFuel (progress.within outermost) longer
        = .ok (final.within outermost) := by
  induction fuel generalizing longerFuel progress text longer with
  | zero => cases read
  | succ fuel ih =>
      obtain ⟨longerFuel, rfl⟩ := Nat.exists_eq_succ_of_ne_zero (Nat.ne_zero_of_lt enough)
      have skipped := followed.skipLayout progress.extended
      rw [readParts] at read ⊢
      cases shape : skipLayout progress.extended text with
      | nil =>
          rw [shape] at read skipped
          cases read
          rcases skipped.of_nil with reached | hidden
          · obtain ⟨fuel, rfl⟩ : ∃ fuel, longerFuel = fuel + 2 := ⟨longerFuel - 2, by omega⟩
            have longerShape
                : skipLayout (final.within outermost).extended longer = ')' :: ['$'] :=
              reached
            left
            rw [longerShape]
            exact readParts_closing closed plain
          · have longerShape : skipLayout (final.within outermost).extended longer = [] := hidden
            right
            rw [longerShape]
      | cons c rest =>
          rw [shape] at read skipped
          obtain ⟨longerRest, longerShape, tail⟩ := skipped.of_cons
          obtain ⟨⟨next, left⟩, part, remaining⟩ := bind_eq_ok_iff.mp read
          obtain ⟨longerLeft, longerPart, follows⟩ := readPart_within c outermost tail part
          have longerShape'
              : skipLayout (progress.within outermost).extended longer = c :: longerRest :=
            longerShape
          have first
              : readPart (progress.within outermost) c longerRest
                = .ok (next.within outermost, longerLeft) :=
            longerPart
          rw [longerShape']
          dsimp only
          rw [first]
          exact ih (Nat.le_of_succ_le_succ enough) follows remaining

end LogIntake.Regex
