/-! The flags of a pattern: options that hold from where they are set to the end of the
enclosing group.
-/

namespace LogIntake.Regex

/-- An option by its letter: i, m, s, U, u, R and x in this order. -/
inductive Flag where
  | ignoreCase
  | multiLine
  | dotAll
  | swapGreed
  | unicode
  | crlf
  | extended
  deriving Repr, DecidableEq, Inhabited

def Flag.ofLetter? (c : Char) : Option Flag :=
  match c with
  | 'i' => some .ignoreCase
  | 'm' => some .multiLine
  | 's' => some .dotAll
  | 'U' => some .swapGreed
  | 'u' => some .unicode
  | 'R' => some .crlf
  | 'x' => some .extended
  | _ => none

/-- The options that a group switches on and those that it switches off. -/
structure FlagChange where
  on : List Flag
  off : List Flag
  deriving Repr, DecidableEq, Inhabited

/-- What the change says about an option, if anything. -/
def FlagChange.state? (change : FlagChange) (flag : Flag) : Option Bool :=
  if change.on.contains flag then some true
  else if change.off.contains flag then some false
  else none

def FlagChange.isEmpty (change : FlagChange) : Bool :=
  change.on.isEmpty && change.off.isEmpty

/-- The options in force, apart from the one for extended layout, which matters to reading
only.
-/
structure Flags where
  ignoreCase : Bool
  multiLine : Bool
  dotAll : Bool
  swapGreed : Bool
  unicode : Bool
  crlf : Bool
  deriving Repr, DecidableEq, Inhabited

/-- At the start of a pattern nothing but the Unicode option is in force. -/
def Flags.initial : Flags :=
  ⟨false, false, false, false, true, false⟩

def Flags.apply (flags : Flags) (change : FlagChange) : Flags :=
  { ignoreCase := (change.state? .ignoreCase).getD flags.ignoreCase,
    multiLine := (change.state? .multiLine).getD flags.multiLine,
    dotAll := (change.state? .dotAll).getD flags.dotAll,
    swapGreed := (change.state? .swapGreed).getD flags.swapGreed,
    unicode := (change.state? .unicode).getD flags.unicode,
    crlf := (change.state? .crlf).getD flags.crlf }

end LogIntake.Regex
