import LogIntake.Unicode.CodeRanges

/-! Intervals of code points as sequences of intervals of encoding units: a leading unit, which
also tells the length, and up to three units of six bits each.
-/

namespace LogIntake.Regex

open LogIntake.Unicode

abbrev UnitRange :=
  Nat × Nat

/-- The sequences for an interval of code points with a number of units behind the leading
one. Where the interval begins or ends inside the code points of a leading unit, they are split
further.
-/
def unitSequences : Nat → Nat → Nat → List (List UnitRange)
  | 0, first, last => [[(first, last)]]
  | count + 1, first, last =>
      let block := Nat.pow 64 (count + 1)
      let low := first / block
      let high := last / block
      if low = high then
        (unitSequences count (first % block) (last % block)).map ((low, low) :: ·)
      else
        let opening :=
          if first % block = 0 then []
          else (unitSequences count (first % block) (block - 1)).map ((low, low) :: ·)
        let closing :=
          if last % block = block - 1 then []
          else (unitSequences count 0 (last % block)).map ((high, high) :: ·)
        let start := if first % block = 0 then low else low + 1
        let stop := if last % block = block - 1 then high + 1 else high
        let whole :=
          if start < stop then [(start, stop - 1) :: List.replicate (count + 1) (0, 63)] else []
        opening ++ whole ++ closing

/-- The code points whose encodings have the same length, without surrogates, and the number of
units behind the leading one.
-/
def encodingClasses : List (CodeRange × Nat) :=
  [(⟨0, 0x7F⟩, 0), (⟨0x80, 0x7FF⟩, 1), (⟨0x800, 0xD7FF⟩, 2), (⟨0xE000, 0xFFFF⟩, 2),
   (⟨0x10000, maxCodePoint⟩, 3)]

/-- The sequences for the code points of a set, in ascending order. The first unit of each
sequence stands for its length.
-/
def encodedSequences (ranges : CodeRanges) : List (List UnitRange) :=
  encodingClasses.flatMap fun (range, count) =>
    (ranges.filter fun other => other.first ≤ range.last && range.first ≤ other.last).flatMap
      fun other =>
        (unitSequences count (max other.first range.first) (min other.last range.last)).map
          ((count, count) :: ·)

/-- The number of units that two sequences have in common at their beginning. -/
def commonLength : List UnitRange → List UnitRange → Nat
  | left :: lefts, right :: rights =>
      if left = right then commonLength lefts rights + 1 else 0
  | _, _ => 0

/-- The nodes of the tree of ascending sequences, the first unit of which needs no node. -/
def treeSize : List UnitRange → List (List UnitRange) → Nat
  | _, [] => 0
  | before, sequence :: rest =>
      (sequence.length - max 1 (commonLength before sequence)) + treeSize sequence rest

end LogIntake.Regex
