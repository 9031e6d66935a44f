/-! Binary floating-point numbers of 64 bits, as exact integers times powers of two, with
arithmetic that rounds to nearest and, at a tie, to the even neighbour.
-/

namespace LogIntake

/-- A finite number: a significand below 2^53 times a power of two, with a sign. -/
structure Binary64 where
  negative : Bool
  significand : Nat
  exponent : Int
  deriving Repr, DecidableEq, Inhabited

namespace Binary64

/-- The exponent of the smallest positive number. -/
def minExponent : Int :=
  -1074

/-- The exponent from which a full significand overflows. -/
def overflowExponent : Int :=
  972

/-- The quotient of two numbers, rounded to nearest and to even at a tie. -/
def roundedQuotient (num den : Nat) : Nat :=
  let quotient := num / den
  let twice := 2 * (num % den)
  if twice > den || (twice == den && quotient % 2 == 1) then quotient + 1 else quotient

/-- Numerator and denominator of a ratio after division by a power of two. -/
def scaleDown (num den : Nat) (exponent : Int) : Nat × Nat :=
  match exponent with
  | .ofNat e => (num, den * Nat.pow 2 e)
  | .negSucc e => (num * Nat.pow 2 (e + 1), den)

/-- The exponent at which the ratio has a significand of 53 bits, or the least exponent. -/
def exponentOf (num den : Nat) : Int :=
  let guess := (Nat.log2 num : Int) - (Nat.log2 den : Int) - 53
  let (n, d) := scaleDown num den guess
  max minExponent (if Nat.pow 2 53 ≤ n / d then guess + 1 else guess)

/-- The number nearest to a ratio, unless it overflows. -/
def ofRatio? (negative : Bool) (num den : Nat) : Option Binary64 :=
  if num = 0 then some ⟨negative, 0, minExponent⟩
  else
    let exponent := exponentOf num den
    let (n, d) := scaleDown num den exponent
    let significand := roundedQuotient n d
    let (significand, exponent) :=
      if significand = Nat.pow 2 53 then (Nat.pow 2 52, exponent + 1) else (significand, exponent)
    if overflowExponent ≤ exponent then none else some ⟨negative, significand, exponent⟩

def powerRatio (exponent : Int) : Nat × Nat :=
  match exponent with
  | .ofNat e => (Nat.pow 2 e, 1)
  | .negSucc e => (1, Nat.pow 2 (e + 1))

def ratio (x : Binary64) : Nat × Nat :=
  let (n, d) := powerRatio x.exponent
  (x.significand * n, d)

def mul? (x y : Binary64) : Option Binary64 :=
  ofRatio? (x.negative != y.negative) (x.ratio.1 * y.ratio.1) (x.ratio.2 * y.ratio.2)

/-- The rounded quotient by a number other than zero, unless it overflows. -/
def div? (x y : Binary64) : Option Binary64 :=
  ofRatio? (x.negative != y.negative) (x.ratio.1 * y.ratio.2) (x.ratio.2 * y.ratio.1)

/-- The number nearest to a natural number, unless it overflows. -/
def ofNat? (n : Nat) : Option Binary64 :=
  ofRatio? false n 1

def neg (x : Binary64) : Binary64 :=
  { x with negative := !x.negative }

end Binary64

end LogIntake
