import LogIntake.Regex.Expr

/-! Programs for matching. An expression becomes instructions that read characters, look
around, note places, and branch with a preference; a match is a path from the entry to the
accepting instruction.
-/

namespace LogIntake.Regex

open LogIntake.Unicode

/-- An instruction, with the instructions that follow it by number. -/
inductive Inst where
  | accept
  | chars (ranges : CodeRanges) (next : Nat)
  | look (look : Look) (next : Nat)
  | note (slot next : Nat)
  | branch (preferred other : Nat)
  deriving Repr, DecidableEq, Inhabited

abbrev Code :=
  Array Inst

/-- A branch between one more round and going on. -/
def branchOn (greedy : Bool) (again next : Nat) : Inst :=
  if greedy then .branch again next else .branch next again

/-- Adds instructions that go on to a given one; the result is the number of the first. -/
abbrev Fragment :=
  Nat → Code → Nat × Code

def emit (inst : Inst) (code : Code) : Nat × Code :=
  (code.size, code.push inst)

def repeatExactly (fragment : Fragment) : Nat → Fragment
  | 0, next, code => (next, code)
  | count + 1, next, code =>
      let (next, code) := repeatExactly fragment count next code
      fragment next code

/-- A fragment at most several times: each round but the first is inside the one before it,
and every way out goes on alike.
-/
def repeatAtMost (fragment : Fragment) (greedy : Bool) : Nat → Fragment
  | 0, next, code => (next, code)
  | count + 1, next, code =>
      let (inner, code) := repeatAtMost fragment greedy count next code
      let (first, code) := fragment inner code
      emit (branchOn greedy first next) code

/-- A fragment at least once; the second number is that of the branch at the end of a round. -/
def repeatSome (fragment : Fragment) (greedy : Bool) (next : Nat) (code : Code)
    : Nat × Nat × Code :=
  let loop := code.size
  let (first, code) := fragment loop (code.push .accept)
  (first, loop, code.setIfInBounds loop (branchOn greedy first next))

/-- A fragment any number of times. Rounds may not be empty where the fragment always reads
something, and then the branch after a round serves as the entry; otherwise the first round
has a branch of its own, which keeps the order of preference.
-/
def repeatAny (fragment : Fragment) (greedy mayBeEmpty : Bool) (next : Nat) (code : Code)
    : Nat × Code :=
  let (first, loop, code) := repeatSome fragment greedy next code
  if mayBeEmpty then emit (branchOn greedy first next) code else (loop, code)

/-- A fragment between a least and a greatest number of times. -/
def repeatBetween (fragment : Fragment) (greedy mayBeEmpty : Bool) (min : Nat)
    (max : Option Nat)
    : Fragment := fun next code =>
  match max with
  | some max =>
      let (next, code) := repeatAtMost fragment greedy (max - min) next code
      repeatExactly fragment min next code
  | none =>
      if min = 0 then repeatAny fragment greedy mayBeEmpty next code
      else
        let (next, _, code) := repeatSome fragment greedy next code
        repeatExactly fragment (min - 1) next code

/-- The bounds of a repetition; repeating what matches no characters is pointless after the
first round.
-/
def effectiveBounds (min : Nat) (max : Option Nat) (zeroWidth : Bool) : Nat × Option Nat :=
  if zeroWidth then (Nat.min min 1, some (Nat.min (max.getD 1) 1)) else (min, max)

namespace Expr

mutual

def fragment : Expr → Fragment
  | .empty, next, code => (next, code)
  | .chars ranges, next, code => emit (.chars ranges next) code
  | .look place, next, code => emit (.look place next) code
  | .capture index sub, next, code =>
      let (close, code) := emit (.note (2 * index + 1) next) code
      let (inner, code) := sub.fragment close code
      emit (.note (2 * index) inner) code
  | .repetition min max greedy sub, next, code =>
      let (min, max) := effectiveBounds min max sub.isZeroWidth
      repeatBetween sub.fragment greedy sub.mayBeEmpty min max next code
  | .sequence items, next, code => sequenceFragment items next code
  | .choice branches, next, code => choiceFragment branches next code

/-- The fragment of several expressions in a row. -/
def sequenceFragment : List Expr → Fragment
  | [], next, code => (next, code)
  | expr :: exprs, next, code =>
      let (next, code) := sequenceFragment exprs next code
      expr.fragment next code

/-- The fragment of alternative expressions, of which earlier ones are preferred. -/
def choiceFragment : List Expr → Fragment
  | [], next, code => (next, code)
  | [expr], next, code => expr.fragment next code
  | expr :: exprs, next, code =>
      let (others, code) := choiceFragment exprs next code
      let (first, code) := expr.fragment next code
      emit (.branch first others) code

end

end Expr

/-- A program: its instructions, of which the first accepts, and the number of its entry. -/
structure Program where
  code : Code
  entry : Nat
  deriving Repr, Inhabited

/-- The program of an expression, which notes the ends of the match in the slots zero and
one.
-/
def Expr.program (expr : Expr) : Program :=
  let (entry, code) := (Expr.capture 0 expr).fragment 0 #[.accept]
  ⟨code, entry⟩

end LogIntake.Regex
