import LogIntake.Proofs.Regex.Followed.Scanner
import LogIntake.Regex.ClassParser

/-! Reading a set of characters in a text that something follows. A set ends at its own bracket,
so it never reaches the closing behind the text of a pattern.
-/

namespace LogIntake.Regex

-----------------------------------------------------------------------------------------
-- The opening of a bracket
-----------------------------------------------------------------------------------------

theorem takeHyphens_followed {extended : Bool} {fuel longerFuel : Nat}
    {sets value : List CharSet} {text longer rest : List Char} (followed : Followed text longer)
    (enough : text.length < fuel) (longerEnough : longer.length < longerFuel)
    (taken : takeHyphens extended fuel sets text = .ok (value, rest))
    : ∃ rest',
        takeHyphens extended longerFuel sets longer = .ok (value, rest') ∧ Followed rest rest' := by
  induction fuel generalizing longerFuel sets text longer with
  | zero => omega
  | succ fuel ih =>
      obtain ⟨longerFuel, rfl⟩ := Nat.exists_eq_succ_of_ne_zero (Nat.ne_zero_of_lt longerEnough)
      cases text with
      | nil => cases taken
      | cons c text =>
          obtain ⟨longer, rfl, tail⟩ := followed.of_cons
          have shorter : (skipLayout extended text).length < fuel :=
            Nat.lt_of_le_of_lt (skipLayout_length_le extended text) (Nat.lt_of_succ_lt_succ enough)
          have longerShorter : (skipLayout extended longer).length < longerFuel :=
            Nat.lt_of_le_of_lt (skipLayout_length_le extended longer)
              (Nat.lt_of_succ_lt_succ longerEnough)
          revert taken
          rw [takeHyphens, takeHyphens]
          split
          case isTrue => exact ih (tail.skipLayout extended) shorter longerShorter
          case isFalse =>
            rintro ⟨⟩
            exact ⟨c :: longer, rfl, tail.cons c⟩

/-- Takes the negation mark of a bracket. -/
def takeNegation (extended : Bool) (text : List Char) : Bool × List Char :=
  match text with
  | '^' :: rest => (true, skipLayout extended rest)
  | _ => (false, text)

/-- Takes a closing bracket that stands for itself, right behind the opening one. -/
def takeFirstBracket (extended negated : Bool) (sets : List CharSet)
    : Scan (Bool × BracketLevel) := fun text =>
  match sets, text with
  | [], ']' :: rest =>
      match skipLayout extended rest with
      | [] => throw .unclosedClass
      | rest => return ((negated, ⟨[singleton ⟨']', false⟩], none⟩), rest)
  | sets, text => return ((negated, ⟨sets, none⟩), text)

/-- The opening of a bracket is its negation mark, its hyphens and its first bracket. -/
theorem takeOpening_eq (extended : Bool) (text : List Char)
    : takeOpening extended text
      = let (negated, inner) := takeNegation extended (skipLayout extended text)
        takeHyphens extended (inner.length + 1) [] inner >>= fun (sets, rest) =>
          takeFirstBracket extended negated sets rest :=
  rfl

theorem takeNegation_marked (extended : Bool) (rest : List Char)
    : takeNegation extended ('^' :: rest) = (true, skipLayout extended rest) :=
  rfl

theorem takeNegation_unmarked {text : List Char} (unmarked : text.head? ≠ some '^')
    (extended : Bool)
    : takeNegation extended text = (false, text) := by
  unfold takeNegation
  split
  case h_1 => exact absurd rfl unmarked
  case h_2 => rfl

theorem takeNegation_followed {text longer : List Char} (followed : Followed text longer)
    (extended : Bool)
    : (takeNegation extended text).1 = (takeNegation extended longer).1
      ∧ Followed (takeNegation extended text).2 (takeNegation extended longer).2 := by
  rcases followed.starts '^' (by decide) with
    ⟨rest, longerRest, rfl, rfl, tail⟩ | ⟨unmarked, longerUnmarked⟩
  · rw [takeNegation_marked, takeNegation_marked]
    exact ⟨rfl, tail.skipLayout extended⟩
  · rw [takeNegation_unmarked unmarked, takeNegation_unmarked longerUnmarked]
    exact ⟨rfl, followed⟩

theorem takeFirstBracket_other {sets : List CharSet} {text : List Char}
    (other : ¬ (sets = [] ∧ text.head? = some ']')) {extended negated : Bool}
    : takeFirstBracket extended negated sets text = .ok ((negated, ⟨sets, none⟩), text) := by
  unfold takeFirstBracket
  split
  case h_1 => exact absurd ⟨rfl, rfl⟩ other
  case h_2 => rfl

theorem takeFirstBracket_steady (extended negated : Bool) (sets : List CharSet)
    : Steady (takeFirstBracket extended negated sets)
        (takeFirstBracket extended negated sets) := by
  intro text longer value rest followed taken
  by_cases first : sets = [] ∧ text.head? = some ']'
  · obtain ⟨rfl, bracket⟩ := first
    obtain ⟨inner, rfl⟩ := List.head?_eq_some_iff.mp bracket
    obtain ⟨longerInner, rfl, tail⟩ := followed.of_cons
    rw [takeFirstBracket] at taken ⊢
    cases shape : skipLayout extended inner with
    | nil =>
        rw [shape] at taken
        cases taken
    | cons c inner =>
        obtain ⟨longerInner, longerShape, innerTail⟩ := tail.layout_cons shape
        rw [shape] at taken
        rw [longerShape]
        cases taken
        exact ⟨_, rfl, innerTail.cons c⟩
  · have longerFirst : ¬ (sets = [] ∧ longer.head? = some ']') :=
      fun both => followed.head?_ne (fun bracket => first ⟨both.1, bracket⟩) (by decide) both.2
    rw [takeFirstBracket_other first] at taken
    cases taken
    exact ⟨longer, takeFirstBracket_other longerFirst, followed⟩

theorem takeOpening_steady (extended : Bool)
    : Steady (takeOpening extended) (takeOpening extended) := by
  intro text longer value rest followed taken
  rw [takeOpening_eq] at taken ⊢
  obtain ⟨negation, follows⟩ := takeNegation_followed (followed.skipLayout extended) extended
  generalize takeNegation extended (skipLayout extended text) = marked at taken follows negation
  generalize takeNegation extended (skipLayout extended longer) = longerMarked
    at follows negation ⊢
  obtain ⟨negated, inner⟩ := marked
  obtain ⟨_, longerInner⟩ := longerMarked
  cases negation
  dsimp only at taken follows ⊢
  obtain ⟨⟨sets, left⟩, hyphens, taken⟩ := bind_eq_ok_iff.mp taken
  obtain ⟨longerLeft, longerHyphens, leftFollows⟩ :=
    takeHyphens_followed follows (Nat.lt_succ_self _) (Nat.lt_succ_self _) hyphens
  obtain ⟨longerRest, bracket, restFollows⟩ :=
    takeFirstBracket_steady extended negated sets leftFollows taken
  exact ⟨longerRest, bind_eq_ok_iff.mpr ⟨_, longerHyphens, bracket⟩, restFollows⟩

/-- A scanner that may find nothing finds the same in a longer text. -/
def SteadyOption {α : Type} (scan : List Char → Option (α × List Char)) : Prop :=
  ∀ ⦃text longer⦄,
    Followed text longer →
    (scan text = none ∧ scan longer = none)
    ∨ ∃ value rest rest',
        scan text = some (value, rest) ∧ scan longer = some (value, rest') ∧ Followed rest rest'

/-- An operation has two characters, and the closing starts with none of them. -/
theorem takeSetOp?_steady : SteadyOption takeSetOp? := by
  intro text longer followed
  match text with
  | [] =>
      rcases followed.of_nil with rfl | rfl
      · exact .inl ⟨rfl, rfl⟩
      · exact .inl ⟨rfl, rfl⟩
  | [first] =>
      obtain ⟨longer, rfl, tail⟩ := followed.of_cons
      rcases tail.of_nil with rfl | rfl
      · exact .inl ⟨by simp [takeSetOp?], by simp [takeSetOp?, closing]⟩
      · exact .inl ⟨by simp [takeSetOp?], by simp [takeSetOp?]⟩
  | first :: second :: rest =>
      obtain ⟨longer, rfl, tail⟩ := followed.of_cons
      obtain ⟨longer, rfl, behind⟩ := tail.of_cons
      by_cases intersects : first = '&' ∧ second = '&'
      · obtain ⟨rfl, rfl⟩ := intersects
        exact .inr ⟨.intersection, rest, longer, rfl, rfl, behind⟩
      by_cases removes : first = '-' ∧ second = '-'
      · obtain ⟨rfl, rfl⟩ := removes
        exact .inr ⟨.difference, rest, longer, rfl, rfl, behind⟩
      by_cases differs : first = '~' ∧ second = '~'
      · obtain ⟨rfl, rfl⟩ := differs
        exact .inr ⟨.symmetricDifference, rest, longer, rfl, rfl, behind⟩
      have nothing (rest : List Char) : takeSetOp? (first :: second :: rest) = none := by
        unfold takeSetOp?
        split <;> simp_all
      exact .inl ⟨nothing rest, nothing longer⟩

-----------------------------------------------------------------------------------------
-- ASCII classes by their names
-----------------------------------------------------------------------------------------

/-- Takes the negation mark of an ASCII class. -/
def takePosixMark (text : List Char) : Bool × List Char :=
  match text with
  | '^' :: rest => (true, rest)
  | _ => (false, text)

/-- Takes the name of an ASCII class, through its closing bracket. -/
def takePosixName? (negated : Bool) (text : List Char) : Option (CharSet × List Char) :=
  let name := text.takeWhile (· ≠ ':')
  match text.drop name.length with
  | ':' :: ']' :: rest =>
      let name := String.ofList name
      if (posixRanges? name).isSome then some (.posix name negated, rest) else none
  | _ => none

theorem takePosix?_colon (text : List Char)
    : takePosix? (':' :: text)
      = takePosixName? (takePosixMark text).1 (takePosixMark text).2 :=
  rfl

theorem takePosix?_other {text : List Char} (other : text.head? ≠ some ':')
    : takePosix? text = none := by
  unfold takePosix?
  split
  case h_1 => exact absurd rfl other
  case h_2 => rfl

theorem takePosixMark_other {text : List Char} (unmarked : text.head? ≠ some '^')
    : takePosixMark text = (false, text) := by
  unfold takePosixMark
  split
  case h_1 => exact absurd rfl unmarked
  case h_2 => rfl

theorem takePosixMark_followed {text longer : List Char} (followed : Followed text longer)
    : (takePosixMark text).1 = (takePosixMark longer).1
      ∧ Followed (takePosixMark text).2 (takePosixMark longer).2 := by
  rcases followed.starts '^' (by decide) with
    ⟨rest, longerRest, rfl, rfl, tail⟩ | ⟨unmarked, longerUnmarked⟩
  · exact ⟨rfl, tail⟩
  · rw [takePosixMark_other unmarked, takePosixMark_other longerUnmarked]
    exact ⟨rfl, followed⟩

/-- Without a colon there is no name of an ASCII class. -/
theorem takePosixName?_open {text : List Char} (noColon : ':' ∉ text) (negated : Bool)
    : takePosixName? negated text = none := by
  have all := takeWhile_unmarked noColon []
  rw [List.append_nil, List.takeWhile_nil, List.append_nil] at all
  simp only [takePosixName?, all, List.drop_length]

/-- A bracket has to follow the colon at the end of the name. -/
theorem takePosixName?_colon {name : List Char} (noColon : ':' ∉ name) (negated : Bool)
    {after : List Char} (unclosed : after.head? ≠ some ']')
    : takePosixName? negated (name ++ ':' :: after) = none := by
  have all := takeWhile_unmarked noColon (':' :: after)
  rw [List.takeWhile_cons_of_neg (by simp), List.append_nil] at all
  simp only [takePosixName?, all, List.drop_left]
  split
  case h_1 shape =>
    cases shape
    exact absurd rfl unclosed
  case h_2 => rfl

/-- With the bracket, the class is the one of that name. -/
theorem takePosixName?_closed {name : List Char} (noColon : ':' ∉ name) (negated : Bool)
    (rest : List Char)
    : takePosixName? negated (name ++ ':' :: ']' :: rest)
      = if (posixRanges? (String.ofList name)).isSome then
          some (.posix (String.ofList name) negated, rest)
        else none := by
  have all := takeWhile_unmarked noColon (':' :: ']' :: rest)
  rw [List.takeWhile_cons_of_neg (by simp), List.append_nil] at all
  simp only [takePosixName?, all, List.drop_left]

/-- The same name of an ASCII class is taken: the closing has no colon. -/
theorem takePosixName?_steady (negated : Bool) : SteadyOption (takePosixName? negated) := by
  intro text longer followed
  by_cases colon : ':' ∈ text
  · obtain ⟨name, after, rfl, noColon⟩ := List.eq_append_cons_of_mem colon
    obtain ⟨longerAfter, rfl, follows⟩ := followed.of_mark
    rcases follows.starts ']' (by decide) with
      ⟨rest, longerRest, rfl, rfl, tail⟩ | ⟨unclosed, longerUnclosed⟩
    · rw [takePosixName?_closed noColon, takePosixName?_closed noColon]
      split
      case isTrue => exact .inr ⟨_, rest, longerRest, rfl, rfl, tail⟩
      case isFalse => exact .inl ⟨rfl, rfl⟩
    · exact .inl ⟨takePosixName?_colon noColon negated unclosed,
        takePosixName?_colon noColon negated longerUnclosed⟩
  · have longerOpen : ':' ∉ longer := by
      cases followed with
      | hidden => exact colon
      | closed => simpa [closing] using colon
    exact .inl ⟨takePosixName?_open colon negated, takePosixName?_open longerOpen negated⟩

theorem takePosix?_steady : SteadyOption takePosix? := by
  intro text longer followed
  rcases followed.starts ':' (by decide) with
    ⟨rest, longerRest, rfl, rfl, tail⟩ | ⟨other, longerOther⟩
  · obtain ⟨mark, follows⟩ := takePosixMark_followed tail
    rw [takePosix?_colon, takePosix?_colon, mark]
    exact takePosixName?_steady _ follows
  · exact .inl ⟨takePosix?_other other, takePosix?_other longerOther⟩

-----------------------------------------------------------------------------------------
-- Items and intervals
-----------------------------------------------------------------------------------------

theorem takeItem_steady (extended : Bool) : Steady (takeItem extended) (takeItem extended) := by
  intro text longer pattern rest followed taken
  cases text with
  | nil => cases taken
  | cons c text =>
      obtain ⟨longer, rfl, tail⟩ := followed.of_cons
      by_cases escapes : c = '\\'
      · subst escapes
        exact takeEscape_steady extended tail taken
      · simp only [takeItem] at taken ⊢
        cases taken
        exact ⟨longer, rfl, tail⟩

/-- The character that is next in a longer text is the same, unless it is that of the closing.
-/
theorem peekPastLayout_followed {text longer : List Char} (followed : Followed text longer)
    (extended : Bool)
    : peekPastLayout extended text = peekPastLayout extended longer
      ∨ (peekPastLayout extended text = none ∧ peekPastLayout extended longer = some ')') := by
  have heads {text longer : List Char} (followed : Followed text longer)
      : text.head? = longer.head? ∨ (text.head? = none ∧ longer.head? = some ')') := by
    cases followed with
    | hidden => exact .inl rfl
    | closed =>
        cases text with
        | nil => exact .inr ⟨rfl, rfl⟩
        | cons => exact .inl rfl
  unfold peekPastLayout
  cases extended with
  | false => exact heads followed
  | true =>
      have blanks := followed.dropBlanks
      simp only [Bool.not_true, Bool.false_eq_true, if_false]
      generalize text.dropWhile isBlank = inner at blanks
      generalize longer.dropWhile isBlank = longerInner at blanks
      rcases blanks.starts '#' (by decide) with
        ⟨rest, longerRest, rfl, rfl, tail⟩ | ⟨noComment, longerNoComment⟩
      · exact heads tail.dropBlanks
      · split
        case h_1 => exact absurd rfl noComment
        case h_2 =>
          split
          case h_1 => exact absurd rfl longerNoComment
          case h_2 => exact heads blanks

/-- Takes what may follow the first item of an interval. -/
def takeIntervalEnd (extended : Bool) (first : Pattern) : Scan CharSet := fun text => do
  match text with
  | [] => throw .unclosedClass
  | '-' :: rest =>
      let next := peekPastLayout extended rest
      if next = some ']' || next = some '-' then
        let set ← setOfItem first
        return (set, '-' :: rest)
      else
        let (last, rest) ← takeItem extended (skipLayout extended rest)
        let first ← endOfInterval first
        let last ← endOfInterval last
        if last.char < first.char then throw .invalidClassRange
        return (.range first last, rest)
  | rest =>
      let set ← setOfItem first
      return (set, rest)

/-- An interval is an item and what may follow it. -/
theorem takeInterval_eq (extended : Bool) (text : List Char)
    : takeInterval extended text
      = takeItem extended text >>= fun (first, rest) =>
          takeIntervalEnd extended first (skipLayout extended rest) :=
  rfl

theorem takeIntervalEnd_single {text : List Char} (more : text ≠ [])
    (noHyphen : text.head? ≠ some '-') (extended : Bool) (first : Pattern)
    : takeIntervalEnd extended first text = (do return (← setOfItem first, text)) := by
  unfold takeIntervalEnd
  split
  case h_1 => exact absurd rfl more
  case h_2 => exact absurd rfl noHyphen
  case h_3 => rfl

theorem takeIntervalEnd_steady (extended : Bool) (first : Pattern)
    : Steady (takeIntervalEnd extended first) (takeIntervalEnd extended first) := by
  intro text longer set rest followed taken
  rcases followed.starts '-' (by decide) with
    ⟨inner, longerInner, rfl, rfl, tail⟩ | ⟨single, longerSingle⟩
  · rw [takeIntervalEnd] at taken ⊢
    have next
        : (peekPastLayout extended longerInner = some ']'
            || peekPastLayout extended longerInner = some '-')
          = (peekPastLayout extended inner = some ']'
            || peekPastLayout extended inner = some '-') := by
      rcases peekPastLayout_followed tail extended with same | ⟨ended, closed⟩
      · rw [same]
      · rw [ended, closed]
        rfl
    revert taken
    dsimp only
    rw [next]
    split
    case isTrue => exact Steady.of_made (setOfItem first) id followed
    case isFalse =>
      intro taken
      obtain ⟨⟨last, left⟩, item, taken⟩ := bind_eq_ok_iff.mp taken
      obtain ⟨longerLeft, longerItem, follows⟩ :=
        takeItem_steady extended (tail.skipLayout extended) item
      obtain ⟨lower, lowerMade, taken⟩ := bind_eq_ok_iff.mp taken
      obtain ⟨upper, upperMade, taken⟩ := bind_eq_ok_iff.mp taken
      dsimp only at taken
      split at taken
      case isTrue => cases taken
      case isFalse ordered =>
        cases taken
        refine ⟨longerLeft, ?_, follows⟩
        rw [longerItem]
        simp only [bind, Except.bind, lowerMade, upperMade, if_neg ordered]
        rfl
  · cases text with
    | nil => cases taken
    | cons c text =>
        obtain ⟨longer, rfl, tail⟩ := followed.of_cons
        rw [takeIntervalEnd_single (List.cons_ne_nil _ _) single] at taken
        rw [takeIntervalEnd_single (List.cons_ne_nil _ _) longerSingle]
        exact Steady.of_made (setOfItem first) id followed taken

theorem takeInterval_steady (extended : Bool)
    : Steady (takeInterval extended) (takeInterval extended) := by
  intro text longer set rest followed taken
  rw [takeInterval_eq] at taken ⊢
  refine (takeItem_steady extended).bind ?_ followed taken
  exact fun first => (takeIntervalEnd_steady extended first).skipLayout extended

-----------------------------------------------------------------------------------------
-- Levels of brackets
-----------------------------------------------------------------------------------------

/-- A bracket opens an ASCII class or a level inside. -/
theorem takeLevels_opening {extended : Bool} {text inner : List Char}
    (shape : skipLayout extended text = '[' :: inner)
    (fuel : Nat) (outer : List (Bool × BracketLevel)) (negated : Bool) (level : BracketLevel)
    : takeLevels extended (fuel + 1) outer negated level text
      = match takePosix? inner with
        | some (set, rest) => takeLevels extended fuel outer negated (level.push set) rest
        | none =>
            takeOpening extended inner >>= fun ((inner, next), rest) =>
              takeLevels extended fuel ((negated, level) :: outer) inner next rest := by
  rw [takeLevels, shape]
  rfl

/-- Without a bracket, an operation or an interval is read. -/
theorem takeLevels_other {extended : Bool} {text inner : List Char} {c : Char}
    (shape : skipLayout extended text = c :: inner) (notOpening : c ≠ '[') (notClosing : c ≠ ']')
    (fuel : Nat) (outer : List (Bool × BracketLevel)) (negated : Bool) (level : BracketLevel)
    : takeLevels extended (fuel + 1) outer negated level text
      = match takeSetOp? (c :: inner) with
        | some (op, rest) => takeLevels extended fuel outer negated (level.operate op) rest
        | none =>
            takeInterval extended (c :: inner) >>= fun (set, rest) =>
              takeLevels extended fuel outer negated (level.push set) rest := by
  rw [takeLevels, shape]
  split
  case h_1 impossible => cases impossible
  case h_2 opening =>
    cases opening
    exact absurd rfl notOpening
  case h_3 closes =>
    cases closes
    exact absurd rfl notClosing
  case h_4 => rfl

/-- The same levels of brackets are read. Witness: induction on the bound of the steps, which is
the only thing that the two readings do not have in common.
-/
theorem takeLevels_steady (extended : Bool) {fuel longerFuel : Nat} (le : fuel ≤ longerFuel)
    (outer : List (Bool × BracketLevel)) (negated : Bool) (level : BracketLevel)
    : Steady (takeLevels extended fuel outer negated level)
        (takeLevels extended longerFuel outer negated level) := by
  induction fuel generalizing longerFuel outer negated level with
  | zero =>
      intro text longer pattern rest followed taken
      cases taken
  | succ fuel ih =>
      obtain ⟨longerFuel, rfl⟩ := Nat.exists_eq_succ_of_ne_zero (Nat.ne_zero_of_lt le)
      have fewer := Nat.le_of_succ_le_succ le
      intro text longer pattern rest followed taken
      cases shape : skipLayout extended text with
      | nil =>
          rw [takeLevels, shape] at taken
          cases taken
      | cons c inner =>
          obtain ⟨longerInner, longerShape, tail⟩ := followed.layout_cons shape
          by_cases opens : c = '['
          · subst opens
            rw [takeLevels_opening shape] at taken
            rw [takeLevels_opening longerShape]
            rcases takePosix?_steady tail with
              ⟨absent, longerAbsent⟩ | ⟨set, left, longerLeft, found, longerFound, follows⟩
            · rw [absent] at taken
              rw [longerAbsent]
              refine (takeOpening_steady extended).bind ?_ tail taken
              exact fun opened => ih fewer ((negated, level) :: outer) opened.1 opened.2
            · rw [found] at taken
              rw [longerFound]
              exact ih fewer _ _ _ follows taken
          by_cases closes : c = ']'
          · subst closes
            rw [takeLevels, shape] at taken
            rw [takeLevels, longerShape]
            cases outer with
            | nil =>
                cases taken
                exact ⟨longerInner, rfl, tail⟩
            | cons => exact ih fewer _ _ _ tail taken
          · rw [takeLevels_other shape opens closes] at taken
            rw [takeLevels_other longerShape opens closes]
            rcases takeSetOp?_steady (tail.cons c) with
              ⟨absent, longerAbsent⟩ | ⟨op, left, longerLeft, found, longerFound, follows⟩
            · rw [absent] at taken
              rw [longerAbsent]
              refine (takeInterval_steady extended).bind ?_ (tail.cons c) taken
              exact fun set => ih fewer outer negated (level.push set)
            · rw [found] at taken
              rw [longerFound]
              exact ih fewer _ _ _ follows taken

theorem takeClass_steady (extended : Bool) : Steady (takeClass extended) (takeClass extended) := by
  intro text longer pattern rest followed taken
  have fewer := Nat.succ_le_succ followed.length_le
  refine (takeOpening_steady extended).bind ?_ followed taken
  exact fun opened => takeLevels_steady extended fewer [] opened.1 opened.2

end LogIntake.Regex
