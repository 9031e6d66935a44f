import LogIntake.Regex.Program

/-! What the fragment of an expression adds to a program. Added instructions go on to each other
or to the one that was given to go on to, none of them accepts, and none notes the ends of the
whole match. So a path that has entered a fragment leaves it by that one instruction only.
-/

namespace LogIntake.Regex

/-- The capturing groups of an expression are numbered from one on. -/
inductive Expr.Numbered : Expr → Prop
  | empty : Numbered .empty
  | chars (ranges : Unicode.CodeRanges) : Numbered (.chars ranges)
  | look (look : Look) : Numbered (.look look)
  | capture {index sub} (positive : 1 ≤ index) (inner : Numbered sub)
    : Numbered (.capture index sub)
  | repetition {sub} (min : Nat) (max : Option Nat) (greedy : Bool) (inner : Numbered sub)
    : Numbered (.repetition min max greedy sub)
  | sequence {items} (each : ∀ item ∈ items, Numbered item) : Numbered (.sequence items)
  | choice {branches} (each : ∀ branch ∈ branches, Numbered branch) : Numbered (.choice branches)

/-- The instruction goes on to instructions of some kind only, and notes neither end of the whole
match.
-/
def Inst.Within (inside : Nat → Prop) : Inst → Prop
  | .accept => False
  | .chars _ next => inside next
  | .look _ next => inside next
  | .note slot next => 2 ≤ slot ∧ inside next
  | .branch preferred other => inside preferred ∧ inside other

theorem Inst.Within.mono {inside wider : Nat → Prop}
    (widens : ∀ target, inside target → wider target) {inst : Inst} (within : inst.Within inside)
    : inst.Within wider := by
  cases inst with
  | accept => exact within
  | chars | look => exact widens _ within
  | note => exact ⟨within.1, widens _ within.2⟩
  | branch => exact ⟨widens _ within.1, widens _ within.2⟩

theorem branchOn_within {inside : Nat → Prop} {greedy : Bool} {again next : Nat}
    (goesOn : inside again) (leaves : inside next)
    : (branchOn greedy again next).Within inside := by
  cases greedy with
  | false => exact ⟨leaves, goesOn⟩
  | true => exact ⟨goesOn, leaves⟩

/-- An instruction that was added between two sizes of the code, or the one to go on to. -/
def Inside (next first last target : Nat) : Prop :=
  target = next ∨ (first ≤ target ∧ target < last)

/-- The grown code keeps the code, and what it adds stays inside. -/
structure Extends (next : Nat) (code : Code) (entry : Nat) (grown : Code) : Prop where
  grows : code.size ≤ grown.size
  keeps : ∀ index < code.size, grown[index]? = code[index]?
  enters : Inside next code.size grown.size entry
  stays
    : ∀ index, code.size ≤ index →
        ∀ inst ∈ grown[index]?, inst.Within (Inside next code.size grown.size)

namespace Extends

variable {next middle entry other : Nat} {code between grown : Code} {inst : Inst}

theorem refl (next : Nat) (code : Code) : Extends next code next code := by
  refine ⟨Nat.le_refl _, fun _ _ => rfl, .inl rfl, ?_⟩
  intro index outside inst found
  obtain ⟨inBounds, _⟩ := Array.getElem?_eq_some_iff.mp found
  omega

/-- What goes on to the entry of added code is added before it. -/
theorem trans (first : Extends next code middle between)
    (second : Extends middle between entry grown)
    : Extends next code entry grown := by
  have grows := Nat.le_trans first.grows second.grows
  have widens : ∀ target, Inside middle between.size grown.size target
      → Inside next code.size grown.size target := by
    rintro target (rfl | ⟨lower, upper⟩)
    · rcases first.enters with same | ⟨lower, upper⟩
      · exact .inl same
      · exact .inr ⟨lower, Nat.lt_of_lt_of_le upper second.grows⟩
    · exact .inr ⟨Nat.le_trans first.grows lower, upper⟩
  refine ⟨grows, ?_, widens entry second.enters, ?_⟩
  · intro index inBounds
    rw [second.keeps index (Nat.lt_of_lt_of_le inBounds first.grows), first.keeps index inBounds]
  · intro index outside inst found
    by_cases early : index < between.size
    · rw [second.keeps index early] at found
      refine (first.stays index outside inst found).mono ?_
      rintro target (same | ⟨lower, upper⟩)
      · exact .inl same
      · exact .inr ⟨lower, Nat.lt_of_lt_of_le upper second.grows⟩
    · exact (second.stays index (Nat.le_of_not_lt early) inst found).mono widens

/-- Code may be added beside added code, with the same instruction to go on to. -/
theorem beside (first : Extends next code other between)
    (second : Extends next between entry grown)
    : Extends next code entry grown := by
  have start : Extends next code next between := ⟨first.grows, first.keeps, .inl rfl, first.stays⟩
  exact start.trans second

theorem inside_of_grows (grows : between.size ≤ grown.size)
    (inside : Inside next code.size between.size entry)
    : Inside next code.size grown.size entry := by
  rcases inside with same | ⟨lower, upper⟩
  · exact .inl same
  · exact .inr ⟨lower, Nat.lt_of_lt_of_le upper grows⟩

theorem emit (extension : Extends next code entry grown)
    (within : inst.Within (Inside next code.size grown.size))
    : Extends next code (emit inst grown).1 (emit inst grown).2 := by
  have grows : grown.size ≤ (grown.push inst).size := by simp
  have last : grown.size < (grown.push inst).size := by simp
  refine ⟨Nat.le_trans extension.grows grows, ?_, .inr ⟨extension.grows, last⟩, ?_⟩
  · intro index inBounds
    have early : index < grown.size := Nat.lt_of_lt_of_le inBounds extension.grows
    rw [← extension.keeps index inBounds]
    simp [Regex.emit, Array.getElem?_push, Nat.ne_of_lt early]
  · intro index outside added found
    rw [Regex.emit, Array.getElem?_push] at found
    split at found
    case isTrue =>
      cases found
      exact within.mono fun _ => inside_of_grows grows
    case isFalse =>
      exact (extension.stays index outside added found).mono fun _ => inside_of_grows grows

/-- A loop extends the code, whether it is entered at its first round or at its branch. The
branch stands first, as a placeholder until it is known where the round begins.
-/
theorem closeLoop {first : Nat} (greedy : Bool) (next : Nat)
    (round : Extends code.size (code.push .accept) first grown)
    : let closed := grown.setIfInBounds code.size (branchOn greedy first next)
      Extends next code first closed ∧ Extends next code code.size closed := by
  intro closed
  have size : closed.size = grown.size := Array.size_setIfInBounds
  have placeholder : (code.push Inst.accept).size = code.size + 1 := Array.size_push _
  have grows : code.size + 1 ≤ grown.size := placeholder ▸ round.grows
  have inside : Inside next code.size closed.size first := by
    rcases round.enters with same | ⟨lower, upper⟩
    · exact .inr ⟨by omega, by omega⟩
    · exact .inr ⟨by omega, by omega⟩
  have keeps : ∀ index < code.size, closed[index]? = code[index]? := by
    intro index inBounds
    have before := round.keeps index (by omega)
    rw [Array.getElem?_setIfInBounds_ne (by omega), before,
      Array.getElem?_push, if_neg (by omega)]
  have stays : ∀ index, code.size ≤ index → ∀ inst ∈ closed[index]?,
      inst.Within (Inside next code.size closed.size) := by
    intro index outside inst found
    by_cases atLoop : code.size = index
    · subst atLoop
      rw [Array.getElem?_setIfInBounds_self_of_lt (by omega)] at found
      cases found
      exact branchOn_within inside (.inl rfl)
    · rw [Array.getElem?_setIfInBounds_ne atLoop] at found
      refine (round.stays index (by omega) inst found).mono ?_
      rintro target (same | ⟨lower, upper⟩)
      · exact .inr ⟨by omega, by omega⟩
      · exact .inr ⟨by omega, by omega⟩
  exact ⟨⟨by omega, keeps, inside, stays⟩,
    ⟨by omega, keeps, .inr ⟨Nat.le_refl _, by omega⟩, stays⟩⟩

end Extends

-----------------------------------------------------------------------------------------
-- Fragments that extend whatever code they are added to
-----------------------------------------------------------------------------------------

/-- A fragment that extends every code. -/
def Fragment.Sound (fragment : Fragment) : Prop :=
  ∀ next code, Extends next code (fragment next code).1 (fragment next code).2

variable {fragment : Fragment}

theorem repeatExactly_sound (sound : fragment.Sound) (count : Nat)
    : Fragment.Sound (repeatExactly fragment count) := by
  intro next code
  induction count with
  | zero => exact .refl next code
  | succ count ih => exact ih.trans (sound _ _)

theorem repeatAtMost_sound (sound : fragment.Sound) (greedy : Bool) (count : Nat)
    : Fragment.Sound (repeatAtMost fragment greedy count) := by
  intro next code
  induction count with
  | zero => exact .refl next code
  | succ count ih =>
      have round := ih.trans (sound _ _)
      exact round.emit (branchOn_within round.enters (.inl rfl))

/-- Rounds in a loop extend the code, with either entry. -/
theorem repeatSome_extends (sound : fragment.Sound) (greedy : Bool) (next : Nat) (code : Code)
    : let loop := repeatSome fragment greedy next code
      Extends next code loop.1 loop.2.2 ∧ Extends next code loop.2.1 loop.2.2 :=
  (sound code.size (code.push .accept)).closeLoop greedy next

theorem repeatAny_sound (sound : fragment.Sound) (greedy mayBeEmpty : Bool)
    : Fragment.Sound (repeatAny fragment greedy mayBeEmpty) := by
  intro next code
  obtain ⟨atRound, atBranch⟩ := repeatSome_extends sound greedy next code
  unfold repeatAny
  cases mayBeEmpty with
  | false => exact atBranch
  | true => exact atRound.emit (branchOn_within atRound.enters (.inl rfl))

theorem repeatBetween_sound (sound : fragment.Sound) (greedy mayBeEmpty : Bool) (min : Nat)
    (max : Option Nat)
    : Fragment.Sound (repeatBetween fragment greedy mayBeEmpty min max) := by
  intro next code
  cases max with
  | some max =>
      exact (repeatAtMost_sound sound greedy _ next code).trans (repeatExactly_sound sound _ _ _)
  | none =>
      unfold repeatBetween
      dsimp only
      split
      case isTrue => exact repeatAny_sound sound greedy mayBeEmpty next code
      case isFalse =>
        exact (repeatSome_extends sound greedy next code).1.trans (repeatExactly_sound sound _ _ _)

namespace Expr

theorem sequenceFragment_sound {items : List Expr} (each : ∀ item ∈ items, item.fragment.Sound)
    : Fragment.Sound (sequenceFragment items) := by
  induction items with
  | nil =>
      intro next code
      rw [sequenceFragment]
      exact .refl next code
  | cons item rest ih =>
      intro next code
      obtain ⟨first, others⟩ := List.forall_mem_cons.mp each
      rw [sequenceFragment]
      exact (ih others next code).trans (first _ _)

theorem choiceFragment_sound {branches : List Expr}
    (each : ∀ branch ∈ branches, branch.fragment.Sound)
    : Fragment.Sound (choiceFragment branches) := by
  induction branches with
  | nil =>
      intro next code
      rw [choiceFragment]
      exact .refl next code
  | cons branch rest ih =>
      intro next code
      obtain ⟨first, others⟩ := List.forall_mem_cons.mp each
      cases rest with
      | nil =>
          rw [choiceFragment]
          exact first next code
      | cons second rest =>
          rw [choiceFragment]
          · have after := ih others next code
            have branching := after.beside (first next _)
            have otherInside := Extends.inside_of_grows (first next _).grows after.enters
            exact branching.emit ⟨branching.enters, otherInside⟩
          · simp

/-- The fragment of an expression extends the code, by induction on the expression. -/
theorem Numbered.fragment_sound {expr : Expr} (numbered : expr.Numbered)
    : expr.fragment.Sound := by
  induction numbered with
  | empty =>
      intro next code
      rw [fragment]
      exact .refl next code
  | chars ranges =>
      intro next code
      rw [fragment]
      exact (Extends.refl next code).emit (.inl rfl)
  | look look =>
      intro next code
      rw [fragment]
      exact (Extends.refl next code).emit (.inl rfl)
  | @capture index sub positive inner ih =>
      intro next code
      rw [fragment]
      have closeSlot : (Inst.note (2 * index + 1) next).Within (Inside next code.size code.size) :=
        ⟨by omega, .inl rfl⟩
      have body := ((Extends.refl next code).emit closeSlot).trans (ih _ _)
      exact body.emit ⟨by omega, body.enters⟩
  | repetition min max greedy inner ih =>
      intro next code
      rw [fragment]
      exact repeatBetween_sound ih greedy _ _ _ next code
  | sequence each ih =>
      intro next code
      rw [fragment]
      exact sequenceFragment_sound ih next code
  | choice each ih =>
      intro next code
      rw [fragment]
      exact choiceFragment_sound ih next code

end Expr

end LogIntake.Regex
