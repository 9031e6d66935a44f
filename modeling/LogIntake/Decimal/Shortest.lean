import LogIntake.Decimal.Binary64

/-! Shortest decimal text: the fewest digits that read back as the same binary number, and of
those the nearest to it.
-/

namespace LogIntake.Decimal

/-- Decimal digits as one integer, times a power of ten. -/
structure Digits where
  value : Nat
  exponent : Int
  deriving Repr, DecidableEq, Inhabited

/-- The interval of ratios that round to a binary number, over a common denominator. Its ends
belong to it exactly if the significand is even.
-/
structure Neighbourhood where
  low : Nat
  centre : Nat
  high : Nat
  denominator : Nat
  closed : Bool
  deriving Repr, DecidableEq, Inhabited

/-- The neighbourhood of a positive number: half a unit up, and half a unit down unless the
number is the first of its binade, where it is a quarter.
-/
def Neighbourhood.ofBinary (x : Binary64) : Neighbourhood :=
  let (scale, den) := Binary64.powerRatio x.exponent
  let centre := 4 * x.significand * scale
  let down :=
    if x.significand = Nat.pow 2 52 ∧ Binary64.minExponent < x.exponent then scale else 2 * scale
  { low := centre - down, centre, high := centre + 2 * scale, denominator := 4 * den,
    closed := x.significand % 2 == 0 }

/-- Whether a ratio with the same denominator lies in the neighbourhood. -/
def Neighbourhood.holds (area : Neighbourhood) (num : Nat) : Bool :=
  if area.closed then area.low ≤ num && num ≤ area.high
  else area.low < num && num < area.high

/-- The neighbourhood with its bounds measured in a power of ten. -/
def Neighbourhood.inUnits (area : Neighbourhood) (exponent : Int) : Neighbourhood × Nat :=
  match exponent with
  | .ofNat e => (area, area.denominator * Nat.pow 10 e)
  | .negSucc e =>
      let scale := Nat.pow 10 (e + 1)
      ({ area with
          low := area.low * scale, centre := area.centre * scale, high := area.high * scale },
       area.denominator)

/-- The multiple of a power of ten in the neighbourhood, the nearer one if there are two. -/
def Neighbourhood.onGrid? (area : Neighbourhood) (exponent : Int) : Option Nat :=
  let (area, unit) := area.inUnits exponent
  let below := area.centre / unit
  let above := below + 1
  let belowFits := below ≠ 0 && area.holds (below * unit)
  let aboveFits := area.holds (above * unit)
  let belowNearer := area.centre - below * unit ≤ above * unit - area.centre
  if belowFits && (!aboveFits || belowNearer) then some below
  else if aboveFits then some above
  else none

def search (area : Neighbourhood) : Nat → Int → Digits
  | 0, exponent => ⟨0, exponent⟩
  | fuel + 1, exponent =>
      match area.onGrid? exponent with
      | some value => ⟨value, exponent⟩
      | none => search area fuel (exponent - 1)

/-- The shortest digits of a positive number. The search starts above the greatest number
and ends below the smallest.
-/
def Digits.ofBinary (x : Binary64) : Digits :=
  search (.ofBinary x) 680 310

/-- Digits of a text with a point after the first digits, filled up with zeros. -/
def positional (digits : List Char) (exponent : Int) : List Char :=
  match exponent with
  | .ofNat e => digits ++ List.replicate e '0' ++ ['.', '0']
  | .negSucc e =>
      let places := e + 1
      if places < digits.length then
        digits.take (digits.length - places) ++ '.' :: digits.drop (digits.length - places)
      else
        '0' :: '.' :: List.replicate (places - digits.length) '0' ++ digits

/-- Digits with one place before the point and an exponent of at least two digits. -/
def scientific (digits : List Char) (exponent : Int) : List Char :=
  let mantissa :=
    match digits with
    | first :: second :: rest => first :: '.' :: second :: rest
    | short => short
  let size := Nat.toDigits 10 exponent.natAbs
  let size := if size.length < 2 then '0' :: size else size
  mantissa ++ ['e', if exponent < 0 then '-' else '+'] ++ size

/-- The text of a number: positional from a ten-thousandth up to below 10^16, scientific
elsewhere, and always with a point or an exponent.
-/
def text (x : Binary64) : String :=
  let sign := if x.negative then ['-'] else []
  if x.significand = 0 then String.ofList (sign ++ ['0', '.', '0'])
  else
    let shortest := Digits.ofBinary x
    let digits := Nat.toDigits 10 shortest.value
    let leading := shortest.exponent + digits.length - 1
    String.ofList (sign ++
      (if -4 ≤ leading ∧ leading < 16 then positional digits shortest.exponent
       else scientific digits leading))

end LogIntake.Decimal
