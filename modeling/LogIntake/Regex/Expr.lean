import LogIntake.Regex.Parser

/-! Regular expressions with their flags applied: every set of characters is a set of code
points, and every assertion says what it looks at.
-/

namespace LogIntake.Regex

open LogIntake.Unicode

/-- A condition on the characters around a place. -/
inductive Look where
  | textStart
  | textEnd
  | lineStart
  | lineEnd
  | crlfLineStart
  | crlfLineEnd
  | word (unicode : Bool) (edge : WordEdge)
  deriving Repr, DecidableEq, Inhabited

/-- A regular expression. -/
inductive Expr where
  | empty
  | chars (ranges : CodeRanges)
  | look (look : Look)
  | capture (index : Nat) (sub : Expr)
  | repetition (min : Nat) (max : Option Nat) (greedy : Bool) (sub : Expr)
  | sequence (items : List Expr)
  | choice (branches : List Expr)
  deriving Repr, Inhabited

def dotRanges (flags : Flags) : CodeRanges :=
  if flags.dotAll then [⟨0, maxCodePoint⟩]
  else if flags.crlf then CodeRanges.complement [⟨0x0A, 0x0A⟩, ⟨0x0D, 0x0D⟩]
  else CodeRanges.complement [⟨0x0A, 0x0A⟩]

def Assertion.toLook (flags : Flags) : Assertion → Look
  | .lineStart =>
      if !flags.multiLine then .textStart else if flags.crlf then .crlfLineStart else .lineStart
  | .lineEnd =>
      if !flags.multiLine then .textEnd else if flags.crlf then .crlfLineEnd else .lineEnd
  | .textStart => .textStart
  | .textEnd => .textEnd
  | .word edge => .word flags.unicode edge

def Literal.toExpr (flags : Flags) (literal : Literal) : Except Fault Expr :=
  if !flags.unicode && literal.isByte && 0x80 ≤ literal.char.toNat then
    .error .notWellFormedText
  else .ok (.chars (foldCase flags [⟨literal.char.toNat, literal.char.toNat⟩]))

namespace Pattern

mutual

/-- The expression of a pattern under the options in force, with the options in force behind
it.
-/
def toExpr (flags : Flags) : Pattern → Except Fault (Expr × Flags)
  | .empty => .ok (.empty, flags)
  | .options change => .ok (.empty, flags.apply change)
  | .literal char => do
      let expr ← char.toExpr flags
      return (expr, flags)
  | .dot =>
      if flags.unicode then .ok (.chars (dotRanges flags), flags) else .error .notWellFormedText
  | .assertion place => .ok (.look (place.toLook flags), flags)
  | .set chars => do
      let ranges ← chars.ranges flags
      return (.chars ranges, flags)
  | .repetition min max greedy sub => do
      let (expr, after) ← toExpr flags sub
      return (.repetition min max (greedy != flags.swapGreed) expr, after)
  | .group (.capture index _) sub => do
      let (expr, _) ← toExpr flags sub
      return (.capture index expr, flags)
  | .group (.options change) sub => do
      let (expr, _) ← toExpr (flags.apply change) sub
      return (expr, flags)
  | .sequence items => do
      let (exprs, after) ← toExprs flags items
      return (.sequence exprs, after)
  | .choice branches => do
      let (exprs, after) ← toExprs flags branches
      return (.choice exprs, after)

/-- The expressions of several patterns, each under the options that the one before it leaves
in force.
-/
def toExprs (flags : Flags) : List Pattern → Except Fault (List Expr × Flags)
  | [] => .ok ([], flags)
  | pattern :: patterns => do
      let (expr, flags) ← toExpr flags pattern
      let (exprs, flags) ← toExprs flags patterns
      return (expr :: exprs, flags)

end

end Pattern

namespace Expr

mutual

/-- Whether the expression can match no characters at all. -/
def mayBeEmpty : Expr → Bool
  | .empty => true
  | .chars _ => false
  | .look _ => true
  | .capture _ sub => sub.mayBeEmpty
  | .repetition min _ _ sub => min = 0 || sub.mayBeEmpty
  | .sequence items => allMayBeEmpty items
  | .choice branches => anyMayBeEmpty branches

/-- Whether each of several expressions can match no characters. -/
def allMayBeEmpty : List Expr → Bool
  | [] => true
  | expr :: exprs => expr.mayBeEmpty && allMayBeEmpty exprs

/-- Whether some of several expressions can match no characters. -/
def anyMayBeEmpty : List Expr → Bool
  | [] => false
  | expr :: exprs => expr.mayBeEmpty || anyMayBeEmpty exprs

end

mutual

/-- Whether the expression can match nothing but no characters. -/
def isZeroWidth : Expr → Bool
  | .empty => true
  | .chars _ => false
  | .look _ => true
  | .capture _ sub => sub.isZeroWidth
  | .repetition _ max _ sub => max = some 0 || sub.isZeroWidth
  | .sequence items => allZeroWidth items
  | .choice branches => allZeroWidth branches

/-- Whether each of several expressions matches no characters. -/
def allZeroWidth : List Expr → Bool
  | [] => true
  | expr :: exprs => expr.isZeroWidth && allZeroWidth exprs

end

end Expr

end LogIntake.Regex
