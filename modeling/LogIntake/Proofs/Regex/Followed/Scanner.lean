import LogIntake.Proofs.Outcome
import LogIntake.Regex.Scanner

/-! Scanning a text that something follows. Behind the text of a pattern stand the parenthesis
that closes the group around it and the dollar sign. Whatever is taken off the front of the
text alone is taken off the front of the longer text as well, and the same follows the rest,
unless a comment at the end of an extended pattern hides it.
-/

namespace LogIntake.Regex

-----------------------------------------------------------------------------------------
-- A text and the longer text with the closing behind it
-----------------------------------------------------------------------------------------

/-- What follows the text of a pattern. -/
def closing : List Char :=
  [')', '$']

/-- What is left to read of a text, and what is left to read where the closing follows. -/
inductive Followed (text : List Char) : List Char → Prop
  | closed : Followed text (text ++ closing)
  | hidden : Followed text text

theorem dropLayout_closing : dropLayout false closing = closing := by decide +kernel

theorem dropBlanks_closing : closing.dropWhile isBlank = closing := by decide +kernel

namespace Followed

theorem of_cons {c : Char} {text longer : List Char} (followed : Followed (c :: text) longer)
    : ∃ rest, longer = c :: rest ∧ Followed text rest := by
  cases followed with
  | closed => exact ⟨text ++ closing, rfl, .closed⟩
  | hidden => exact ⟨text, rfl, .hidden⟩

theorem of_nil {longer : List Char} (followed : Followed [] longer)
    : longer = closing ∨ longer = [] := by
  cases followed with
  | closed => exact .inl rfl
  | hidden => exact .inr rfl

theorem cons {text longer : List Char} (c : Char) (followed : Followed text longer)
    : Followed (c :: text) (c :: longer) := by
  cases followed with
  | closed => exact .closed
  | hidden => exact .hidden

/-- Dropping layout reaches the closing only outside of comments. Witness: at the end of the text
a comment goes on over the closing and hides it, and outside of one the closing is no layout.
-/
theorem dropLayout {text longer : List Char} (followed : Followed text longer) (comment : Bool)
    : Followed (Regex.dropLayout comment text) (Regex.dropLayout comment longer) := by
  induction text generalizing longer comment with
  | nil =>
      rcases followed.of_nil with rfl | rfl
      · cases comment with
        | false => exact dropLayout_closing.symm ▸ .closed
        | true => exact .hidden
      · exact .hidden
  | cons c text ih =>
      obtain ⟨longer, rfl, tail⟩ := followed.of_cons
      cases comment with
      | true => exact ih tail _
      | false =>
          simp only [Regex.dropLayout]
          split
          case isTrue => exact ih tail false
          case isFalse =>
            split
            case isTrue => exact ih tail true
            case isFalse => exact tail.cons c

theorem skipLayout {text longer : List Char} (followed : Followed text longer) (extended : Bool)
    : Followed (Regex.skipLayout extended text) (Regex.skipLayout extended longer) := by
  cases extended with
  | false => exact followed
  | true => exact followed.dropLayout false

theorem layout_cons {text longer rest : List Char} {c : Char} (followed : Followed text longer)
    {extended : Bool} (shape : Regex.skipLayout extended text = c :: rest)
    : ∃ longerRest,
        Regex.skipLayout extended longer = c :: longerRest ∧ Followed rest longerRest := by
  have skipped := followed.skipLayout extended
  rw [shape] at skipped
  exact skipped.of_cons

theorem dropBlanks {text longer : List Char} (followed : Followed text longer)
    : Followed (text.dropWhile isBlank) (longer.dropWhile isBlank) := by
  induction text generalizing longer with
  | nil =>
      rcases followed.of_nil with rfl | rfl
      · exact dropBlanks_closing.symm ▸ .closed
      · exact .hidden
  | cons c text ih =>
      obtain ⟨longer, rfl, tail⟩ := followed.of_cons
      simp only [List.dropWhile_cons]
      split
      case isTrue => exact ih tail
      case isFalse => exact tail.cons c

end Followed

/-- A scanner takes the same off a longer text as off the text, and the same follows. The longer
text may need a bound of its own on the steps.
-/
def Steady {α : Type} (scan scanLonger : Scan α) : Prop :=
  ∀ ⦃text longer value rest⦄,
    Followed text longer → scan text = .ok (value, rest) →
    ∃ rest', scanLonger longer = .ok (value, rest') ∧ Followed rest rest'

namespace Steady

variable {α β : Type} {scan scanLonger : Scan α}

theorem skipLayout (steady : Steady scan scanLonger) (extended : Bool)
    : Steady (fun text => scan (Regex.skipLayout extended text))
        (fun text => scanLonger (Regex.skipLayout extended text)) :=
  fun _ _ _ _ followed taken => steady (followed.skipLayout extended) taken

theorem bind {next nextLonger : α × List Char → Except Fault (β × List Char)}
    (first : Steady scan scanLonger)
    (second
      : ∀ value,
          Steady (fun rest => next (value, rest)) (fun rest => nextLonger (value, rest)))
    : Steady (fun text => scan text >>= next) (fun text => scanLonger text >>= nextLonger) := by
  intro text longer value rest followed taken
  obtain ⟨⟨middle, left⟩, before, behind⟩ := bind_eq_ok_iff.mp taken
  obtain ⟨longerLeft, longerBefore, follows⟩ := first followed before
  obtain ⟨longerRest, longerBehind, restFollows⟩ := second middle follows behind
  exact ⟨longerRest, bind_eq_ok_iff.mpr ⟨_, longerBefore, longerBehind⟩, restFollows⟩

theorem of_value (value : α)
    : Steady (fun text => pure (value, text)) (fun text => pure (value, text)) := by
  intro text longer value rest followed taken
  cases taken
  exact ⟨longer, rfl, followed⟩

theorem of_made (made : Except Fault α) (wrap : α → β)
    : Steady (fun text => made >>= fun value => pure (wrap value, text))
        (fun text => made >>= fun value => pure (wrap value, text)) := by
  intro text longer value rest followed taken
  obtain ⟨value, made, returned⟩ := bind_eq_ok_iff.mp taken
  cases returned
  exact ⟨longer, bind_eq_ok_iff.mpr ⟨value, made, rfl⟩, followed⟩

end Steady

theorem Followed.length_le {text longer : List Char} (followed : Followed text longer)
    : text.length ≤ longer.length := by
  cases followed <;> simp

/-- A longer text does not start with a character that neither the text nor the closing starts
with.
-/
theorem Followed.head?_ne {text longer : List Char} (followed : Followed text longer) {c : Char}
    (different : text.head? ≠ some c) (noParenthesis : c ≠ ')')
    : longer.head? ≠ some c := by
  cases followed with
  | hidden => exact different
  | closed =>
      cases text with
      | nil => simpa [closing] using noParenthesis.symm
      | cons => exact different

/-- A character other than the parenthesis is the first of both texts or of none. -/
theorem Followed.starts {text longer : List Char} (followed : Followed text longer) (c : Char)
    (noParenthesis : c ≠ ')')
    : (∃ rest longerRest,
          text = c :: rest ∧ longer = c :: longerRest ∧ Followed rest longerRest)
      ∨ (text.head? ≠ some c ∧ longer.head? ≠ some c) := by
  by_cases first : text.head? = some c
  · obtain ⟨rest, rfl⟩ := List.head?_eq_some_iff.mp first
    obtain ⟨longerRest, rfl, tail⟩ := followed.of_cons
    exact .inl ⟨rest, longerRest, rfl, rfl, tail⟩
  · exact .inr ⟨first, followed.head?_ne first noParenthesis⟩

theorem Followed.of_mark {mark : Char} {name after longer : List Char}
    (followed : Followed (name ++ mark :: after) longer)
    : ∃ longerAfter, longer = name ++ mark :: longerAfter ∧ Followed after longerAfter := by
  cases followed with
  | hidden => exact ⟨after, rfl, .hidden⟩
  | closed => exact ⟨after ++ closing, by simp, .closed⟩

theorem takeWhile_unmarked {mark : Char} {name : List Char} (unmarked : mark ∉ name)
    (after : List Char)
    : (name ++ after).takeWhile (· ≠ mark) = name ++ after.takeWhile (· ≠ mark) := by
  apply List.takeWhile_append_of_pos
  intro c member
  have different : c ≠ mark := fun same => unmarked (same ▸ member)
  simpa using different

theorem dropLayout_length_le (comment : Bool) (text : List Char)
    : (dropLayout comment text).length ≤ text.length := by
  induction text generalizing comment with
  | nil => cases comment <;> simp [dropLayout]
  | cons c text ih =>
      cases comment with
      | true => exact Nat.le_succ_of_le (ih _)
      | false =>
          simp only [dropLayout]
          split
          case isTrue => exact Nat.le_succ_of_le (ih false)
          case isFalse =>
            split
            case isTrue => exact Nat.le_succ_of_le (ih true)
            case isFalse => exact Nat.le_refl _

theorem skipLayout_length_le (extended : Bool) (text : List Char)
    : (skipLayout extended text).length ≤ text.length := by
  cases extended with
  | false => exact Nat.le_refl _
  | true => exact dropLayout_length_le false text

-----------------------------------------------------------------------------------------
-- A run of one kind of characters ends before the closing
-----------------------------------------------------------------------------------------

/-- Takes characters of one kind, between which an extended pattern may hold layout. -/
def takeRun (kind : Char → Bool) (extended : Bool) : Nat → List Char → List Char × List Char
  | 0, text => ([], text)
  | _ + 1, [] => ([], [])
  | fuel + 1, c :: rest =>
      if kind c then
        let (run, rest) := takeRun kind extended fuel (skipLayout extended rest)
        (c :: run, rest)
      else ([], c :: rest)

theorem takeDigits_eq_takeRun (extended : Bool) (fuel : Nat) (text : List Char)
    : takeDigits extended fuel text = takeRun Char.isDigit extended fuel text := by
  induction fuel generalizing text with
  | zero => rfl
  | succ fuel ih =>
      cases text with
      | nil => rfl
      | cons c rest => simp only [takeDigits, takeRun, ih]

theorem takeEdgeName_eq_takeRun (extended : Bool) (fuel : Nat) (text : List Char)
    : takeEdgeName extended fuel text = takeRun isEdgeNameChar extended fuel text := by
  induction fuel generalizing text with
  | zero => rfl
  | succ fuel ih =>
      cases text with
      | nil => rfl
      | cons c rest => simp only [takeEdgeName, takeRun, ih]

theorem takeRun_of_nil {kind : Char → Bool} (noParenthesis : kind ')' = false) (extended : Bool)
    (fuel longerFuel : Nat) {longer : List Char} (followed : Followed [] longer)
    : takeRun kind extended fuel [] = ([], [])
      ∧ takeRun kind extended longerFuel longer = ([], longer) := by
  refine ⟨by cases fuel <;> rfl, ?_⟩
  rcases followed.of_nil with rfl | rfl
  · cases longerFuel <;> simp [takeRun, closing, noParenthesis]
  · cases longerFuel <;> rfl

/-- The same run is taken off a longer text. Witness: both bounds suffice, and the run stops at
the closing at the latest, for the kind has no parenthesis.
-/
theorem takeRun_followed {kind : Char → Bool} (noParenthesis : kind ')' = false)
    (extended : Bool) {fuel longerFuel : Nat} {text longer : List Char}
    (followed : Followed text longer) (enough : text.length ≤ fuel)
    (longerEnough : longer.length ≤ longerFuel)
    : ∃ rest,
        takeRun kind extended longerFuel longer = ((takeRun kind extended fuel text).1, rest)
        ∧ Followed (takeRun kind extended fuel text).2 rest := by
  induction fuel generalizing longerFuel text longer with
  | zero =>
      obtain rfl := List.eq_nil_of_length_eq_zero (Nat.le_zero.mp enough)
      obtain ⟨taken, takenLonger⟩ := takeRun_of_nil noParenthesis extended 0 longerFuel followed
      rw [taken, takenLonger]
      exact ⟨longer, rfl, followed⟩
  | succ fuel ih =>
      cases text with
      | nil =>
          obtain ⟨taken, takenLonger⟩ :=
            takeRun_of_nil noParenthesis extended (fuel + 1) longerFuel followed
          rw [taken, takenLonger]
          exact ⟨longer, rfl, followed⟩
      | cons c text =>
          obtain ⟨longer, rfl, tail⟩ := followed.of_cons
          obtain ⟨longerFuel, rfl⟩ := Nat.exists_eq_succ_of_ne_zero (Nat.ne_zero_of_lt longerEnough)
          simp only [takeRun]
          split
          case isTrue =>
            have shorter : (skipLayout extended text).length ≤ fuel :=
              Nat.le_trans (skipLayout_length_le extended text) (Nat.le_of_succ_le_succ enough)
            have longerShorter : (skipLayout extended longer).length ≤ longerFuel :=
              Nat.le_trans (skipLayout_length_le extended longer)
                (Nat.le_of_succ_le_succ longerEnough)
            obtain ⟨rest, taken, follows⟩ := ih (tail.skipLayout extended) shorter longerShorter
            exact ⟨rest, by rw [taken], follows⟩
          case isFalse => exact ⟨c :: longer, rfl, tail.cons c⟩

theorem takeNumber_steady (extended : Bool)
    : Steady (takeNumber extended) (takeNumber extended) := by
  intro text longer value rest followed taken
  have blanks := followed.dropBlanks
  have noParenthesis : Char.isDigit ')' = false := rfl
  obtain ⟨rest', digits, follows⟩ :=
    takeRun_followed noParenthesis extended blanks
      (List.dropWhile_suffix isBlank).length_le (List.dropWhile_suffix isBlank).length_le
  unfold takeNumber at taken ⊢
  rw [takeDigits_eq_takeRun] at taken
  rw [takeDigits_eq_takeRun, digits]
  dsimp only at taken ⊢
  split at taken
  case isTrue => cases taken
  case isFalse fits =>
    cases taken
    rw [if_neg fits]
    exact ⟨_, rfl, follows.dropBlanks.skipLayout extended⟩

-----------------------------------------------------------------------------------------
-- Code points, names and escapes are read from the text alone
-----------------------------------------------------------------------------------------

theorem takeFixedHex_steady (extended : Bool) (count value : Nat)
    : Steady (takeFixedHex extended count value) (takeFixedHex extended count value) := by
  intro text longer code rest followed taken
  induction count generalizing text longer value with
  | zero =>
      cases taken
      exact ⟨longer, rfl, followed⟩
  | succ count ih =>
      cases text with
      | nil => cases taken
      | cons c text =>
          obtain ⟨longer, rfl, tail⟩ := followed.of_cons
          rw [takeFixedHex] at taken ⊢
          cases digit : hexDigit? c with
          | none => simp [digit] at taken
          | some digit' =>
              simp only [digit] at taken ⊢
              exact ih _ (tail.skipLayout extended) taken

theorem takeBracedHex_steady (extended : Bool) {fuel longerFuel : Nat} (le : fuel ≤ longerFuel)
    (digits : List Nat)
    : Steady (takeBracedHex extended fuel digits) (takeBracedHex extended longerFuel digits) := by
  intro text longer code rest followed taken
  induction fuel generalizing longerFuel digits text longer with
  | zero => cases taken
  | succ fuel ih =>
      obtain ⟨longerFuel, rfl⟩ := Nat.exists_eq_succ_of_ne_zero (Nat.ne_zero_of_lt le)
      rw [takeBracedHex] at taken ⊢
      cases shape : skipLayout extended text with
      | nil =>
          rw [shape] at taken
          cases taken
      | cons c text =>
          obtain ⟨longer, longerShape, tail⟩ := followed.layout_cons shape
          rw [shape] at taken
          rw [longerShape]
          by_cases closes : c = '\x7d'
          · subst closes
            cases taken
            exact ⟨_, rfl, tail.skipLayout extended⟩
          · cases digit : hexDigit? c with
            | none => simp [digit] at taken
            | some digit' =>
                simp only [digit] at taken ⊢
                exact ih (Nat.le_of_succ_le_succ le) _ tail taken

theorem takeHex_unbraced {extended : Bool} {digits : Nat} {text rest : List Char} {c : Char}
    (shape : skipLayout extended text = c :: rest) (unbraced : c ≠ '\x7b')
    : takeHex extended digits text
      = takeFixedHex extended digits 0 (c :: rest) >>= fun (code, rest) => do
          let char ← charOfCode code
          return (.literal ⟨char, digits = 2⟩, rest) := by
  unfold takeHex
  rw [shape]
  split
  case h_1 impossible => cases impossible
  case h_2 braced =>
    cases braced
    exact absurd rfl unbraced
  case h_3 => rfl

theorem takeHex_steady (extended : Bool) (digits : Nat)
    : Steady (takeHex extended digits) (takeHex extended digits) := by
  intro text longer pattern rest followed taken
  cases shape : skipLayout extended text with
  | nil =>
      rw [takeHex, shape] at taken
      cases taken
  | cons c text =>
      obtain ⟨longer, longerShape, tail⟩ := followed.layout_cons shape
      by_cases opens : c = '\x7b'
      · subst opens
        rw [takeHex, shape] at taken
        rw [takeHex, longerShape]
        have enough := Nat.succ_le_succ tail.length_le
        refine (takeBracedHex_steady extended enough []).bind ?_ tail taken
        intro code text longer pattern rest followed taken
        dsimp only at taken ⊢
        split at taken
        case isTrue => cases taken
        case isFalse nonempty =>
          rw [if_neg nonempty]
          exact Steady.of_made _ _ followed taken
      · rw [takeHex_unbraced shape opens] at taken
        rw [takeHex_unbraced longerShape opens]
        refine (takeFixedHex_steady extended digits 0).bind ?_ (tail.cons c) taken
        exact fun code => Steady.of_made (charOfCode code) _

theorem takeBracedName_steady (extended : Bool) {fuel longerFuel : Nat} (le : fuel ≤ longerFuel)
    (name : List Char)
    : Steady (takeBracedName extended fuel name) (takeBracedName extended longerFuel name) := by
  intro text longer value rest followed taken
  induction fuel generalizing longerFuel name text longer with
  | zero => cases taken
  | succ fuel ih =>
      obtain ⟨longerFuel, rfl⟩ := Nat.exists_eq_succ_of_ne_zero (Nat.ne_zero_of_lt le)
      rw [takeBracedName] at taken ⊢
      cases shape : skipLayout extended text with
      | nil =>
          rw [shape] at taken
          cases taken
      | cons c text =>
          obtain ⟨longer, longerShape, tail⟩ := followed.layout_cons shape
          rw [shape] at taken
          rw [longerShape]
          by_cases closes : c = '\x7d'
          · subst closes
            cases taken
            exact ⟨longer, rfl, tail⟩
          · simp only at taken ⊢
            exact ih (Nat.le_of_succ_le_succ le) _ tail taken

theorem takeProperty_steady (extended negated : Bool)
    : Steady (takeProperty extended negated) (takeProperty extended negated) := by
  intro text longer pattern rest followed taken
  unfold takeProperty at taken ⊢
  cases shape : skipLayout extended text with
  | nil =>
      rw [shape] at taken
      cases taken
  | cons c text =>
      obtain ⟨longer, longerShape, tail⟩ := followed.layout_cons shape
      rw [shape] at taken
      rw [longerShape]
      by_cases opens : c = '\x7b'
      · subst opens
        have enough := Nat.succ_le_succ tail.length_le
        refine (takeBracedName_steady extended enough []).bind ?_ tail taken
        exact fun name => Steady.of_value _
      · by_cases escapes : c = '\\'
        · subst escapes
          cases taken
        · simp only at taken ⊢
          cases taken
          exact ⟨_, rfl, tail.skipLayout extended⟩

theorem takeWordEdge_unbraced {extended : Bool} {text : List Char}
    (unbraced : text.head? ≠ some '\x7b')
    : takeWordEdge extended text = .ok (.assertion (.word .boundary), text) := by
  unfold takeWordEdge
  split
  case h_1 => exact absurd rfl unbraced
  case h_2 => rfl

theorem takeWordEdge_steady (extended : Bool)
    : Steady (takeWordEdge extended) (takeWordEdge extended) := by
  intro text longer pattern rest followed taken
  rcases followed.starts '\x7b' (by decide) with
    ⟨inner, longerInner, rfl, rfl, tail⟩ | ⟨unbraced, longerUnbraced⟩
  · rw [takeWordEdge] at taken ⊢
    cases shape : skipLayout extended inner with
    | nil =>
        rw [shape] at taken
        cases taken
    | cons c name =>
        obtain ⟨longerName, longerShape, nameTail⟩ := tail.layout_cons shape
        rw [shape] at taken
        rw [longerShape]
        have noParenthesis : isEdgeNameChar ')' = false := rfl
        have enough : (c :: name).length ≤ inner.length + 1 :=
          Nat.le_succ_of_le (shape ▸ skipLayout_length_le extended inner)
        have longerEnough : (c :: longerName).length ≤ longerInner.length + 1 :=
          Nat.le_succ_of_le (longerShape ▸ skipLayout_length_le extended longerInner)
        obtain ⟨longerRest, run, follows⟩ :=
          takeRun_followed noParenthesis extended (nameTail.cons c) enough longerEnough
        revert taken
        dsimp only
        rw [takeEdgeName_eq_takeRun, takeEdgeName_eq_takeRun, run]
        generalize takeRun isEdgeNameChar extended (inner.length + 1) (c :: name) = taken at follows
        obtain ⟨edge, left⟩ := taken
        split
        case isTrue =>
          rintro ⟨⟩
          exact ⟨_, rfl, followed⟩
        case isFalse =>
          dsimp only at follows ⊢
          rcases follows.starts '\x7d' (by decide) with
            ⟨left, longerLeft, rfl, rfl, leftTail⟩ | ⟨unclosed, longerUnclosed⟩
          · cases named : wordEdge? edge with
            | none =>
                simp only [named]
                exact nofun
            | some place =>
                simp only [named]
                rintro ⟨⟩
                exact ⟨longerLeft, rfl, leftTail⟩
          · split
            case h_1 closed => simp_all
            case h_2 => exact nofun
  · rw [takeWordEdge_unbraced unbraced] at taken
    cases taken
    exact ⟨longer, takeWordEdge_unbraced longerUnbraced, followed⟩

theorem takeEscape_steady (extended : Bool)
    : Steady (takeEscape extended) (takeEscape extended) := by
  intro text longer pattern rest followed taken
  cases text with
  | nil => cases taken
  | cons c text =>
      obtain ⟨longer, rfl, tail⟩ := followed.of_cons
      rw [takeEscape] at taken ⊢
      revert taken
      -- Both texts go on behind the same letter, so each test splits them alike.
      split
      case isTrue => exact nofun
      split
      case isTrue => exact takeHex_steady extended 2 tail
      split
      case isTrue => exact takeHex_steady extended 4 tail
      split
      case isTrue => exact takeHex_steady extended 8 tail
      split
      case isTrue => exact takeProperty_steady extended _ tail
      split
      case isTrue => exact takeWordEdge_steady extended tail
      split
      case isTrue =>
        rintro ⟨⟩
        exact ⟨longer, rfl, tail⟩
      split
      case h_1 =>
        rintro ⟨⟩
        exact ⟨longer, rfl, tail⟩
      case h_2 => exact nofun

theorem takeFlags_steady (flags : List (Option Flag))
    : Steady (takeFlags flags) (takeFlags flags) := by
  intro text longer value rest followed
  induction text generalizing flags longer with
  | nil => exact nofun
  | cons c text ih =>
      obtain ⟨longer, rfl, tail⟩ := followed.of_cons
      rw [takeFlags, takeFlags]
      split
      case isTrue =>
        split
        case isTrue => exact nofun
        case isFalse =>
          rintro ⟨⟩
          exact ⟨longer, rfl, tail⟩
      case isFalse =>
        split
        case h_1 => exact nofun
        case h_2 =>
          split
          case isTrue => exact nofun
          case isFalse => exact ih _ tail

end LogIntake.Regex
