import LogIntake.Regex.Flags

/-! Patterns as they are written: the tree of a regular expression before flags are applied
and character classes are worked out.
-/

namespace LogIntake.Regex

/-- The operations on sets of characters inside brackets. -/
inductive SetOp where
  | intersection
  | difference
  | symmetricDifference
  deriving Repr, DecidableEq, Inhabited

/-- The classes that an escaped letter names. -/
inductive Shorthand where
  | digit
  | space
  | word
  deriving Repr, DecidableEq, Inhabited

/-- How a Unicode class is asked for: by one name, or by a property and a value of it. -/
inductive PropertyQuery where
  | named (name : String)
  | valued (property value : String)
  deriving Repr, DecidableEq, Inhabited

/-- A single character; one that was written as a byte stands for that byte where the Unicode
option is off.
-/
structure Literal where
  char : Char
  isByte : Bool
  deriving Repr, DecidableEq, Inhabited

/-- A set of characters. -/
inductive CharSet where
  | range (first last : Literal)
  | shorthand (kind : Shorthand) (negated : Bool)
  | posix (name : String) (negated : Bool)
  | property (query : PropertyQuery) (negated : Bool)
  | bracketed (set : CharSet) (negated : Bool)
  | union (sets : List CharSet)
  | combined (op : SetOp) (left right : CharSet)
  deriving Repr, Inhabited

/-- The places at the edges of words. -/
inductive WordEdge where
  | boundary
  | notBoundary
  | start
  | finish
  | startHalf
  | finishHalf
  deriving Repr, DecidableEq, Inhabited

/-- A condition on the place between two characters. -/
inductive Assertion where
  | lineStart
  | lineEnd
  | textStart
  | textEnd
  | word (edge : WordEdge)
  deriving Repr, DecidableEq, Inhabited

/-- What a group does besides grouping: it captures, perhaps under a name, or it sets
options.
-/
inductive GroupKind where
  | capture (index : Nat) (name : Option String)
  | options (change : FlagChange)
  deriving Repr, DecidableEq, Inhabited

/-- A pattern. -/
inductive Pattern where
  | empty
  | options (change : FlagChange)
  | literal (literal : Literal)
  | dot
  | assertion (assertion : Assertion)
  | set (set : CharSet)
  | repetition (min : Nat) (max : Option Nat) (greedy : Bool) (sub : Pattern)
  | group (kind : GroupKind) (sub : Pattern)
  | sequence (items : List Pattern)
  | choice (branches : List Pattern)
  deriving Repr, Inhabited

namespace CharSet

def ofItems : List CharSet → CharSet
  | [item] => item
  | items => .union items

mutual

/-- How deeply brackets, unions and operations nest. -/
def depth : CharSet → Nat
  | .range _ _ => 0
  | .shorthand _ _ => 0
  | .posix _ _ => 0
  | .property _ _ => 0
  | .bracketed set _ => set.depth + 1
  | .union [] => 0
  | .union (set :: sets) => depthOfList (set :: sets) + 1
  | .combined _ left right => max left.depth right.depth + 1

def depthOfList : List CharSet → Nat
  | [] => 0
  | set :: sets => max set.depth (depthOfList sets)

end

end CharSet

namespace Pattern

def ofItems : List Pattern → Pattern
  | [] => .empty
  | [item] => item
  | items => .sequence items

def ofBranches : List Pattern → Pattern
  | [branch] => branch
  | branches => .choice branches

def isRepeatable : Pattern → Bool
  | .empty => false
  | .options _ => false
  | _ => true

mutual

def depth : Pattern → Nat
  | .empty => 0
  | .options _ => 0
  | .literal _ => 0
  | .dot => 0
  | .assertion _ => 0
  | .set (.bracketed inner _) => inner.depth + 1
  | .set _ => 0
  | .repetition _ _ _ sub => sub.depth + 1
  | .group _ sub => sub.depth + 1
  | .sequence items => depthOfList items + 1
  | .choice branches => depthOfList branches + 1

def depthOfList : List Pattern → Nat
  | [] => 0
  | pattern :: patterns => max pattern.depth (depthOfList patterns)

end

end Pattern

end LogIntake.Regex
