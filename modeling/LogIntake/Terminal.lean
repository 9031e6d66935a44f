/-! Emphasis of text on a terminal by escape sequences.
-/

namespace LogIntake.Terminal

/-- The colours in use. -/
inductive Colour where
  | red
  | green
  | yellow
  deriving Repr, DecidableEq, Inhabited

def Colour.code : Colour → String
  | .red => "31"
  | .green => "32"
  | .yellow => "33"

/-- How a text is set off: in bold, in a colour, or both. -/
structure Style where
  bold : Bool
  colour : Option Colour
  deriving Repr, DecidableEq, Inhabited

def plain : Style :=
  ⟨false, none⟩

def bold : Style :=
  ⟨true, none⟩

def coloured (colour : Colour) : Style :=
  ⟨false, some colour⟩

def boldColoured (colour : Colour) : Style :=
  ⟨true, some colour⟩

/-- The character that begins an escape sequence. -/
def escape : Char :=
  Char.ofNat 27

def reset : List Char :=
  [escape, '[', '0', 'm']

def Style.start (style : Style) : List Char :=
  let codes := (if style.bold then ["1"] else [])
    ++ (style.colour.map fun colour => [colour.code]).getD []
  [escape, '['] ++ (";".intercalate codes).toList ++ ['m']

/-- Begins the style again after each reset inside a text, the first argument bounding the
number of steps.
-/
def resume (start : List Char) : Nat → List Char → List Char
  | 0, text => text
  | _ + 1, [] => []
  | fuel + 1, c :: rest =>
      if reset.isPrefixOf (c :: rest) then
        reset ++ start ++ resume start fuel ((c :: rest).drop reset.length)
      else c :: resume start fuel rest

/-- The text in a style, if emphasis is switched on. -/
def paint (emphasis : Bool) (style : Style) (text : String) : String :=
  if !emphasis || style = plain then text
  else
    String.ofList
      (style.start ++ resume style.start text.length text.toList ++ reset)

/-- The text behind the parameters of an escape sequence and the character that ends it. -/
def afterSequence : List Char → List Char
  | '[' :: rest => (rest.dropWhile fun c => 0x20 ≤ c.toNat && c.toNat < 0x40).drop 1
  | _ :: rest => rest
  | [] => []

/-- Drops escape sequences, and control characters other than blanks and line breaks, the first
argument bounding the number of steps.
-/
def dropControls : Nat → List Char → List Char
  | 0, text => text
  | _ + 1, [] => []
  | fuel + 1, c :: rest =>
      if c = escape then dropControls fuel (afterSequence rest)
      else if (c.toNat < 0x20 && !c.isWhitespace && c.toNat ≠ 0x0C) || c.toNat = 0x7F then
        dropControls fuel rest
      else c :: dropControls fuel rest

/-- The text without escape sequences and control characters. -/
def withoutControls (text : String) : String :=
  String.ofList (dropControls (text.length + 1) text.toList)

end LogIntake.Terminal
