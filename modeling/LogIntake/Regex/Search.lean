import LogIntake.Regex.Program

/-! Searching a text for a match. All paths through the program advance together, one
character at a time, in the order of preference; of several paths that meet at an instruction
only the most preferred one goes on. So the match found is the leftmost one, and among those
the one that a preferring search with backtracking would find first.
-/

namespace LogIntake.Regex

open LogIntake.Unicode

abbrev Slots :=
  List (Option Nat)

/-- A place in a text: the number of characters before it, and the characters around it. -/
structure Place where
  index : Nat
  before : Option Char
  after : Option Char
  deriving Repr, DecidableEq, Inhabited

def isWordChar (unicode : Bool) (c : Option Char) : Bool :=
  c.any fun c => (Shorthand.ranges .word unicode).contains c.toNat

def WordEdge.holds (edge : WordEdge) (before after : Bool) : Bool :=
  match edge with
  | .boundary => before != after
  | .notBoundary => before == after
  | .start => !before && after
  | .finish => before && !after
  | .startHalf => !before
  | .finishHalf => !after

def Look.holds (look : Look) (place : Place) : Bool :=
  match look with
  | .textStart => place.before.isNone
  | .textEnd => place.after.isNone
  | .lineStart => place.before.all (· = '\n')
  | .lineEnd => place.after.all (· = '\n')
  | .crlfLineStart =>
      place.before.all (· = '\n') || (place.before = some '\r' && place.after ≠ some '\n')
  | .crlfLineEnd =>
      place.after.all (· = '\r') || (place.after = some '\n' && place.before ≠ some '\r')
  | .word unicode edge =>
      edge.holds (isWordChar unicode place.before) (isWordChar unicode place.after)

/-- A path: the instruction that it has come to, and what it has noted. -/
structure Path where
  inst : Nat
  slots : Slots
  deriving Repr, DecidableEq, Inhabited

/-- The paths at a place, the most preferred one last, and the instructions that some path has
come to there.
-/
structure Front where
  paths : List Path
  visited : Array Bool

def Front.empty (program : Program) : Front :=
  ⟨[], Array.replicate program.code.size false⟩

/-- Follows paths, the most preferred one first, over instructions that read nothing. A path
ends at an instruction that another one has come to already. The first argument bounds the
number of steps.
-/
def follow (program : Program) (place : Place) : Nat → List Path → Front → Front
  | 0, _, front => front
  | _ + 1, [], front => front
  | fuel + 1, path :: paths, front =>
      if front.visited.getD path.inst true then follow program place fuel paths front
      else
        let visited := front.visited.setIfInBounds path.inst true
        match program.code.getD path.inst .accept with
        | .look look next =>
            if look.holds place then
              follow program place fuel (⟨next, path.slots⟩ :: paths) ⟨front.paths, visited⟩
            else follow program place fuel paths ⟨front.paths, visited⟩
        | .note slot next =>
            follow program place fuel (⟨next, path.slots.set slot (some place.index)⟩ :: paths)
              ⟨front.paths, visited⟩
        | .branch preferred other =>
            follow program place fuel (⟨preferred, path.slots⟩ :: ⟨other, path.slots⟩ :: paths)
              ⟨front.paths, visited⟩
        | _ => follow program place fuel paths ⟨path :: front.paths, visited⟩

def Front.add (program : Program) (place : Place) (front : Front) (path : Path) : Front :=
  follow program place (2 * program.code.size + 2) [path] front

/-- Advances paths, the most preferred one first, over the character at a place. The result is
the front at the next place and the slots of a path that has reached the end; paths that are
less preferred than that one are given up.
-/
def advance (program : Program) (c : Option Char) (place : Place)
    : List Path → Front → Front × Option Slots
  | [], front => (front, none)
  | path :: paths, front =>
      match program.code.getD path.inst .accept, c with
      | .accept, _ => (front, some path.slots)
      | .chars ranges next, some c =>
          if ranges.contains c.toNat then
            advance program (some c) place paths (front.add program place ⟨next, path.slots⟩)
          else advance program (some c) place paths front
      | _, _ => advance program c place paths front

/-- The front with a new path, the least preferred one, unless some path has reached the end
already.
-/
def Front.enter (program : Program) (place : Place) (start : Slots) (found : Option Slots)
    (front : Front)
    : Front :=
  if found.isNone then front.add program place ⟨program.entry, start⟩ else front

/-- Searches on from a place. New paths start at each place until some path has reached the
end; the search is over when no path is left.
-/
def searchFrom (program : Program) (start : Slots)
    : Option Slots → Front → Place → List Char → Option Slots
  | found, front, place, [] =>
      let front := front.enter program place start found
      (advance program none place front.paths.reverse (.empty program)).2.or found
  | found, front, place, c :: rest =>
      let front := front.enter program place start found
      let next : Place := ⟨place.index + 1, some c, rest.head?⟩
      let (front, reached) :=
        advance program (some c) next front.paths.reverse (.empty program)
      let found := reached.or found
      if found.isSome && front.paths.isEmpty then found
      else searchFrom program start found front next rest

/-- Searches a text from a place, given the number of slots. -/
def search (program : Program) (slotCount : Nat) (place : Place) (text : List Char)
    : Option Slots :=
  searchFrom program (List.replicate slotCount none) none (.empty program) place text

end LogIntake.Regex
