import LogIntake.Regex.ByteRanges
import LogIntake.Regex.Expr

/-! The size of a compiled pattern, by which patterns that are too large are refused. It is
the number of states of an automaton over bytes, each with a fixed size, together with the
transitions between them.
-/

namespace LogIntake.Regex

open LogIntake.Unicode

def stateSize : Nat :=
  32

def branchSize : Nat :=
  stateSize + 8

def transitionSize : Nat :=
  8

/-- The bytes of a set of characters. Sets within ASCII need one state for all transitions;
others need a state for each node of the tree of their encodings.
-/
def rangesSize (ranges : CodeRanges) : Nat :=
  let sequences := encodedSequences ranges
  match ranges with
  | [⟨first, last⟩] =>
      if first = last then stateSize * treeSize [] sequences
      else 2 * stateSize + 4 * sequences.length + stateSize * treeSize [] sequences
  | _ =>
      if isAscii ranges then 2 * stateSize + transitionSize * ranges.length
      else 2 * stateSize + 4 * sequences.length + stateSize * treeSize [] sequences

namespace Expr

mutual

def size : Expr → Nat
  | .empty => stateSize
  | .chars ranges => rangesSize ranges
  | .look _ => stateSize
  | .capture _ sub => sub.size + 2 * stateSize
  | .repetition min (some max) _ sub =>
      if max = min then min * sub.size
      else min * sub.size + (max - min) * (sub.size + branchSize) + stateSize
  | .repetition min none _ sub => Nat.max min 1 * sub.size + branchSize
  | .sequence items => sizeOfList items
  | .choice branches => sizeOfList branches + 2 * stateSize + 4 * branches.length

def sizeOfList : List Expr → Nat
  | [] => 0
  | expr :: exprs => expr.size + sizeOfList exprs

end

end Expr

end LogIntake.Regex
