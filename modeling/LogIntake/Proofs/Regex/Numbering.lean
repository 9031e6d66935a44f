import LogIntake.Proofs.Outcome
import LogIntake.Proofs.Regex.Fragments
import LogIntake.Regex.Compiled

/-! The numbers of capturing groups. A pattern that was read numbers its groups from one on,
since the number zero is that of the whole match, and so does the expression that it becomes.
-/

namespace LogIntake.Regex

/-- A capturing group does not have the number of the whole match. -/
def GroupKind.Numbered : GroupKind → Prop
  | .capture index _ => 1 ≤ index
  | .options _ => True

/-- The capturing groups of a pattern are numbered from one on. -/
inductive Pattern.Numbered : Pattern → Prop
  | empty : Numbered .empty
  | options (change : FlagChange) : Numbered (.options change)
  | literal (literal : Literal) : Numbered (.literal literal)
  | dot : Numbered .dot
  | assertion (place : Assertion) : Numbered (.assertion place)
  | set (set : CharSet) : Numbered (.set set)
  | repetition {sub} (min : Nat) (max : Option Nat) (greedy : Bool) (inner : Numbered sub)
    : Numbered (.repetition min max greedy sub)
  | group {kind sub} (positive : kind.Numbered) (inner : Numbered sub)
    : Numbered (.group kind sub)
  | sequence {items} (each : ∀ item ∈ items, Numbered item) : Numbered (.sequence items)
  | choice {branches} (each : ∀ branch ∈ branches, Numbered branch)
    : Numbered (.choice branches)

namespace Pattern

theorem toExprs_numbered {items : List Pattern}
    (each
      : ∀ item ∈ items, ∀ {flags after expr},
          item.toExpr flags = .ok (expr, after) → expr.Numbered)
    {flags after : Flags} {exprs : List Expr} (made : toExprs flags items = .ok (exprs, after))
    : ∀ expr ∈ exprs, expr.Numbered := by
  induction items generalizing flags exprs with
  | nil =>
      rw [toExprs] at made
      cases made
      simp
  | cons item rest ih =>
      obtain ⟨first, others⟩ := List.forall_mem_cons.mp each
      rw [toExprs] at made
      obtain ⟨⟨expr, flags'⟩, madeFirst, made⟩ := bind_eq_ok_iff.mp made
      obtain ⟨⟨exprs', after'⟩, madeOthers, returned⟩ := bind_eq_ok_iff.mp made
      cases returned
      exact List.forall_mem_cons.mpr ⟨first madeFirst, ih others madeOthers⟩

/-- An expression numbers its groups like its pattern, by induction on the pattern. -/
theorem Numbered.toExpr {pattern : Pattern} (numbered : pattern.Numbered) {flags after : Flags}
    {expr : Expr} (made : pattern.toExpr flags = .ok (expr, after))
    : expr.Numbered := by
  induction numbered generalizing flags expr after with
  | empty =>
      rw [Pattern.toExpr] at made
      cases made
      exact .empty
  | options change =>
      rw [Pattern.toExpr] at made
      cases made
      exact .empty
  | literal literal =>
      rw [Pattern.toExpr] at made
      obtain ⟨chars, madeChars, returned⟩ := bind_eq_ok_iff.mp made
      cases returned
      unfold Literal.toExpr at madeChars
      split at madeChars
      case isTrue => cases madeChars
      case isFalse =>
        cases madeChars
        exact .chars _
  | dot =>
      rw [Pattern.toExpr] at made
      split at made
      case isTrue =>
        cases made
        exact .chars _
      case isFalse => cases made
  | assertion place =>
      rw [Pattern.toExpr] at made
      cases made
      exact .look _
  | set set =>
      rw [Pattern.toExpr] at made
      obtain ⟨ranges, _, returned⟩ := bind_eq_ok_iff.mp made
      cases returned
      exact .chars ranges
  | repetition min max greedy inner ih =>
      rw [Pattern.toExpr] at made
      obtain ⟨⟨sub, _⟩, madeSub, returned⟩ := bind_eq_ok_iff.mp made
      cases returned
      exact .repetition _ _ _ (ih madeSub)
  | @group kind sub positive inner ih =>
      cases kind with
      | capture index name =>
          rw [Pattern.toExpr] at made
          obtain ⟨⟨sub, _⟩, madeSub, returned⟩ := bind_eq_ok_iff.mp made
          cases returned
          exact .capture positive (ih madeSub)
      | options change =>
          rw [Pattern.toExpr] at made
          obtain ⟨⟨sub, _⟩, madeSub, returned⟩ := bind_eq_ok_iff.mp made
          cases returned
          exact ih madeSub
  | sequence each ih =>
      rw [Pattern.toExpr] at made
      obtain ⟨⟨exprs, _⟩, madeItems, returned⟩ := bind_eq_ok_iff.mp made
      cases returned
      exact .sequence (toExprs_numbered ih madeItems)
  | choice each ih =>
      rw [Pattern.toExpr] at made
      obtain ⟨⟨exprs, _⟩, madeBranches, returned⟩ := bind_eq_ok_iff.mp made
      cases returned
      exact .choice (toExprs_numbered ih madeBranches)

end Pattern

-----------------------------------------------------------------------------------------
-- What is read of a single item encloses no group
-----------------------------------------------------------------------------------------

theorem takeHex_numbered {extended : Bool} {digits : Nat} {text rest : List Char}
    {pattern : Pattern} (taken : takeHex extended digits text = .ok (pattern, rest))
    : pattern.Numbered := by
  unfold takeHex at taken
  split at taken
  case h_1 => cases taken
  case h_2 =>
    obtain ⟨⟨digits, rest'⟩, _, taken⟩ := bind_eq_ok_iff.mp taken
    dsimp only at taken
    split at taken
    case isTrue => cases taken
    case isFalse =>
      obtain ⟨c, _, returned⟩ := bind_eq_ok_iff.mp taken
      cases returned
      exact .literal _
  case h_3 =>
    obtain ⟨⟨code, rest'⟩, _, taken⟩ := bind_eq_ok_iff.mp taken
    obtain ⟨c, _, returned⟩ := bind_eq_ok_iff.mp taken
    cases returned
    exact .literal _

theorem takeProperty_numbered {extended negated : Bool} {text rest : List Char}
    {pattern : Pattern} (taken : takeProperty extended negated text = .ok (pattern, rest))
    : pattern.Numbered := by
  unfold takeProperty at taken
  split at taken
  case h_1 => cases taken
  case h_2 =>
    obtain ⟨⟨name, rest'⟩, _, returned⟩ := bind_eq_ok_iff.mp taken
    cases returned
    exact .set _
  case h_3 => cases taken
  case h_4 =>
    cases taken
    exact .set _

theorem takeWordEdge_numbered {extended : Bool} {text rest : List Char} {pattern : Pattern}
    (taken : takeWordEdge extended text = .ok (pattern, rest))
    : pattern.Numbered := by
  unfold takeWordEdge at taken
  repeat' split at taken
  all_goals cases taken
  all_goals exact .assertion _

theorem letterEscape?_numbered {c : Char} {pattern : Pattern}
    (named : letterEscape? c = some pattern)
    : pattern.Numbered := by
  unfold letterEscape? at named
  dsimp only at named
  split at named
  all_goals cases named
  all_goals first | exact .literal _ | exact .assertion _ | exact .set _

theorem takeEscape_numbered {extended : Bool} {text rest : List Char} {pattern : Pattern}
    (taken : takeEscape extended text = .ok (pattern, rest))
    : pattern.Numbered := by
  cases text with
  | nil => cases taken
  | cons c text =>
      rw [takeEscape] at taken
      split at taken
      case isTrue => cases taken
      split at taken
      case isTrue => exact takeHex_numbered taken
      split at taken
      case isTrue => exact takeHex_numbered taken
      split at taken
      case isTrue => exact takeHex_numbered taken
      split at taken
      case isTrue => exact takeProperty_numbered taken
      split at taken
      case isTrue => exact takeWordEdge_numbered taken
      split at taken
      case isTrue =>
        cases taken
        exact .literal _
      split at taken
      case h_1 pattern named =>
        cases taken
        exact letterEscape?_numbered named
      case h_2 => cases taken

theorem takeLevels_numbered {extended : Bool} {fuel : Nat} {outer : List (Bool × BracketLevel)}
    {negated : Bool} {level : BracketLevel} {text rest : List Char} {pattern : Pattern}
    (taken : takeLevels extended fuel outer negated level text = .ok (pattern, rest))
    : pattern.Numbered := by
  induction fuel generalizing outer negated level text with
  | zero => cases taken
  | succ fuel ih =>
      rw [takeLevels] at taken
      split at taken
      case h_1 => cases taken
      case h_2 =>
        split at taken
        case h_1 => exact ih taken
        case h_2 =>
          obtain ⟨⟨⟨inner, next⟩, rest'⟩, _, taken⟩ := bind_eq_ok_iff.mp taken
          exact ih taken
      case h_3 =>
        dsimp only at taken
        split at taken
        case h_1 =>
          cases taken
          exact .set _
        case h_2 => exact ih taken
      case h_4 =>
        split at taken
        case h_1 => exact ih taken
        case h_2 =>
          obtain ⟨⟨set, rest'⟩, _, taken⟩ := bind_eq_ok_iff.mp taken
          exact ih taken

-----------------------------------------------------------------------------------------
-- Reading numbers a group only when it opens it
-----------------------------------------------------------------------------------------

/-- All patterns around an open group number their groups from one on, and so does it. -/
structure OpenGroup.Numbered (group : OpenGroup) : Prop where
  kind : group.kind.Numbered
  items : ∀ item ∈ group.items, item.Numbered
  branches : ∀ branch ∈ group.branches, branch.Numbered

/-- All patterns that were read number their groups from one on. -/
structure Progress.Numbered (progress : Progress) : Prop where
  items : ∀ item ∈ progress.items, item.Numbered
  branches : ∀ branch ∈ progress.branches, branch.Numbered
  opened : ∀ group ∈ progress.opened, group.Numbered

theorem Pattern.ofItems_numbered {items : List Pattern} (each : ∀ item ∈ items, item.Numbered)
    : (Pattern.ofItems items).Numbered := by
  match items with
  | [] => exact .empty
  | [item] => exact each item (by simp)
  | first :: second :: rest => exact .sequence each

theorem Pattern.ofBranches_numbered {branches : List Pattern}
    (each : ∀ branch ∈ branches, branch.Numbered)
    : (Pattern.ofBranches branches).Numbered := by
  match branches with
  | [branch] => exact each branch (by simp)
  | [] => exact .choice each
  | first :: second :: rest => exact .choice each

namespace Progress.Numbered

variable {progress next : Progress}

theorem push (numbered : progress.Numbered) {item : Pattern} (added : item.Numbered)
    : (progress.push item).Numbered :=
  { numbered with items := List.forall_mem_cons.mpr ⟨added, numbered.items⟩ }

theorem branch (numbered : progress.Numbered)
    : (Pattern.ofItems progress.items.reverse).Numbered :=
  Pattern.ofItems_numbered fun item member => numbered.items item (List.mem_reverse.mp member)

theorem inner (numbered : progress.Numbered) : progress.inner.Numbered := by
  apply Pattern.ofBranches_numbered
  intro branch member
  rcases List.mem_cons.mp (List.mem_reverse.mp member) with rfl | earlier
  · exact numbered.branch
  · exact numbered.branches branch earlier

theorem nextBranch (numbered : progress.Numbered) : progress.nextBranch.Numbered where
  items := by simp [Progress.nextBranch]
  branches := List.forall_mem_cons.mpr ⟨numbered.branch, numbered.branches⟩
  opened := numbered.opened

theorem openGroup (numbered : progress.Numbered) {kind : GroupKind} (positive : kind.Numbered)
    (extended : Bool)
    : (progress.openGroup kind extended).Numbered where
  items := by simp [Progress.openGroup]
  branches := by simp [Progress.openGroup]
  opened := by
    refine List.forall_mem_cons.mpr ⟨?_, numbered.opened⟩
    exact ⟨positive, numbered.items, numbered.branches⟩

theorem closeGroup (numbered : progress.Numbered) (closed : progress.closeGroup = .ok next)
    : next.Numbered := by
  unfold Progress.closeGroup at closed
  split at closed
  case h_1 => cases closed
  case h_2 group opened outer =>
    cases closed
    have all := numbered.opened
    rw [outer] at all
    obtain ⟨first, others⟩ := List.forall_mem_cons.mp all
    refine ⟨List.forall_mem_cons.mpr ⟨?_, first.items⟩, first.branches, others⟩
    exact .group first.kind numbered.inner

theorem repeatLast (numbered : progress.Numbered) {min : Nat} {max : Option Nat} {greedy : Bool}
    (repeated : progress.repeatLast min max greedy = .ok next)
    : next.Numbered := by
  unfold Progress.repeatLast at repeated
  split at repeated
  case h_1 item items shape =>
    split at repeated
    case isTrue =>
      cases repeated
      have all := numbered.items
      rw [shape] at all
      obtain ⟨first, others⟩ := List.forall_mem_cons.mp all
      exact
        { numbered with items := List.forall_mem_cons.mpr ⟨.repetition _ _ _ first, others⟩ }
    case isFalse => cases repeated
  case h_2 => cases repeated

theorem openCapture (numbered : progress.Numbered) {name : Option String}
    (opened : progress.openCapture name = .ok next)
    : next.Numbered := by
  have counted : { progress with captures := progress.captures + 1 }.Numbered :=
    ⟨numbered.items, numbered.branches, numbered.opened⟩
  have grouped :=
    counted.openGroup (show (GroupKind.capture (progress.captures + 1) name).Numbered from
      Nat.le_add_left 1 progress.captures) progress.extended
  unfold Progress.openCapture at opened
  dsimp only at opened
  split at opened
  case h_1 =>
    cases opened
    exact grouped
  case h_2 =>
    split at opened
    case isTrue => cases opened
    case isFalse =>
      cases opened
      exact ⟨grouped.items, grouped.branches, grouped.opened⟩

end Progress.Numbered

variable {progress next : Progress}

theorem openParenthesis_numbered (numbered : progress.Numbered) {text rest : List Char}
    (opened : openParenthesis progress text = .ok (next, rest))
    : next.Numbered := by
  unfold openParenthesis at opened
  split at opened
  case h_1 | h_2 | h_3 | h_4 => cases opened
  case h_5 | h_6 =>
    obtain ⟨⟨name, rest'⟩, _, opened⟩ := bind_eq_ok_iff.mp opened
    obtain ⟨progress', capture, returned⟩ := bind_eq_ok_iff.mp opened
    cases returned
    exact numbered.openCapture capture
  case h_7 =>
    obtain ⟨⟨⟨flags, mark⟩, rest'⟩, _, opened⟩ := bind_eq_ok_iff.mp opened
    dsimp only at opened
    split at opened
    case isTrue =>
      split at opened
      case isTrue => cases opened
      case isFalse =>
        cases opened
        have laidOut (extended : Bool) : { progress with extended }.Numbered :=
          ⟨numbered.items, numbered.branches, numbered.opened⟩
        exact (laidOut _).push (.options _)
    case isFalse =>
      cases opened
      have unnumbered : (GroupKind.options (flagChange flags)).Numbered := trivial
      exact numbered.openGroup unnumbered _
  case h_8 =>
    obtain ⟨progress', capture, returned⟩ := bind_eq_ok_iff.mp opened
    cases returned
    exact numbered.openCapture capture

theorem readPart_numbered (numbered : progress.Numbered) {c : Char} {text rest : List Char}
    (read : readPart progress c text = .ok (next, rest))
    : next.Numbered := by
  unfold readPart at read
  dsimp only at read
  split at read
  case h_1 => exact openParenthesis_numbered numbered read
  case h_2 =>
    obtain ⟨progress', closed, returned⟩ := bind_eq_ok_iff.mp read
    cases returned
    exact numbered.closeGroup closed
  case h_3 =>
    cases read
    exact numbered.nextBranch
  case h_4 =>
    obtain ⟨⟨item, rest'⟩, taken, returned⟩ := bind_eq_ok_iff.mp read
    cases returned
    obtain ⟨⟨⟨negated, level⟩, rest''⟩, _, levels⟩ := bind_eq_ok_iff.mp taken
    exact numbered.push (takeLevels_numbered levels)
  case h_5 | h_6 | h_7 =>
    obtain ⟨progress', repeated, returned⟩ := bind_eq_ok_iff.mp read
    cases returned
    exact numbered.repeatLast repeated
  case h_8 =>
    obtain ⟨⟨⟨min, max⟩, rest'⟩, _, read⟩ := bind_eq_ok_iff.mp read
    obtain ⟨progress', repeated, returned⟩ := bind_eq_ok_iff.mp read
    cases returned
    exact numbered.repeatLast repeated
  case h_9 =>
    obtain ⟨⟨item, rest'⟩, taken, returned⟩ := bind_eq_ok_iff.mp read
    cases returned
    exact numbered.push (takeEscape_numbered taken)
  case h_10 =>
    cases read
    exact numbered.push .dot
  case h_11 | h_12 =>
    cases read
    exact numbered.push (.assertion _)
  case h_13 =>
    cases read
    exact numbered.push (.literal _)

theorem readParts_numbered {fuel : Nat} {text : List Char} (numbered : progress.Numbered)
    (read : readParts fuel progress text = .ok next)
    : next.Numbered := by
  -- Each part keeps the numbering, so the bound on their number does not matter.
  induction fuel generalizing progress text with
  | zero => cases read
  | succ fuel ih =>
      rw [readParts] at read
      split at read
      case h_1 =>
        cases read
        exact numbered
      case h_2 c text' _ =>
        obtain ⟨⟨progress', rest⟩, part, remaining⟩ := bind_eq_ok_iff.mp read
        exact ih (readPart_numbered numbered part) remaining

/-- A pattern reads exactly if its parts do, every group that is opened is closed, and it does
not nest too deeply.
-/
theorem parse_eq_ok_iff {text : List Char} {reading : Reading}
    : parse text = .ok reading
      ↔ ∃ progress,
          readParts (text.length + 1) .start text = .ok progress
          ∧ progress.opened = []
          ∧ progress.inner.depth ≤ nestingLimit
          ∧ reading = ⟨progress.inner, progress.captures, progress.names⟩ := by
  unfold parse
  rw [bind_eq_ok_iff]
  refine exists_congr fun progress => and_congr_right fun _ => ?_
  cases progress.opened with
  | cons group opened =>
      simp only [List.isEmpty_cons, Bool.not_false, if_true, reduceCtorEq, false_and, iff_false]
      rintro ⟨⟩
  | nil =>
      by_cases deep : nestingLimit < progress.inner.depth
      · simp only [List.isEmpty_nil, Bool.not_true, Bool.false_eq_true, if_false, if_pos deep,
          Nat.not_le.mpr deep, false_and, and_false, iff_false]
        rintro ⟨⟩
      · have shallow := Nat.le_of_not_lt deep
        simp [deep, shallow, pure, Except.pure, eq_comm]

/-- A pattern that was read numbers its groups from one on. -/
theorem parse_numbered {text : List Char} {reading : Reading} (read : parse text = .ok reading)
    : reading.pattern.Numbered := by
  obtain ⟨progress, parts, _, _, rfl⟩ := parse_eq_ok_iff.mp read
  have start : Progress.start.Numbered :=
    ⟨by simp [Progress.start], by simp [Progress.start], by simp [Progress.start]⟩
  exact (readParts_numbered start parts).inner

/-- The program of a compiled pattern is that of its expression. -/
theorem program_of_compile {pattern : String} {regex : LogIntake.Regex}
    (compiled : Regex.compile pattern = .ok regex)
    : ∃ reading expr flags,
        Regex.parse pattern.toList = .ok reading
        ∧ reading.pattern.toExpr .initial = .ok (expr, flags)
        ∧ regex.program = expr.program := by
  obtain ⟨reading, read, compiled⟩ := bind_eq_ok_iff.mp compiled
  obtain ⟨⟨expr, flags⟩, made, compiled⟩ := bind_eq_ok_iff.mp compiled
  dsimp only at compiled
  split at compiled
  case isTrue => cases compiled
  case isFalse =>
    cases compiled
    exact ⟨reading, expr, flags, mapError_eq_ok_iff.mp read, mapError_eq_ok_iff.mp made, rfl⟩

end LogIntake.Regex
