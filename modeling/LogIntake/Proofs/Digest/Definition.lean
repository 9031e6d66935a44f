import Mathlib.Algebra.Order.Floor.Semiring
import Mathlib.Analysis.Complex.Trigonometric
import Mathlib.Data.Nat.Digits.Defs

/-! What the digest of a message is. The message is padded to whole blocks. Each block changes four
registers, one at a time, in four rounds of sixteen operations; which bit of a register becomes
which follows from bits of the other three. The registers that the last block leaves are the digest.
-/

namespace LogIntake.Md5

-----------------------------------------------------------------------------------------
-- Padding
-----------------------------------------------------------------------------------------

/-- The number that bytes denote, the least significant first. -/
def lowFirst (bytes : List UInt8) : Nat :=
  Nat.ofDigits 256 (bytes.map UInt8.toNat)

/-- The number that bytes denote, the most significant first. -/
def highFirst (bytes : List UInt8) : Nat :=
  lowFirst bytes.reverse

/-- The padding of a message is a single one bit, as few zero bits as possible, and the number of
the message's bits, of which it has the lowest 64. The message ends a block with it.
-/
structure Pads (message padded : List UInt8) : Prop where
  parts
    : ∃ zeros size,
        padded = message ++ 0x80 :: List.replicate zeros 0 ++ size
        ∧ zeros < 64
        ∧ size.length = 8
        ∧ lowFirst size = 8 * message.length % 2 ^ 64
  whole : 64 ∣ padded.length

/-- One of the sixteen words of a block. -/
def blockWord (padded : List UInt8) (block index : Nat) : BitVec 32 :=
  BitVec.ofNat 32 (lowFirst ((padded.drop (64 * block + 4 * index)).take 4))

-----------------------------------------------------------------------------------------
-- Operations
-----------------------------------------------------------------------------------------

/-- A bit of the word that a round makes of three words. In the first round the first bit chooses
one of the other two, in the second round the last bit does. In the third round the bits are added,
and in the last round the middle bit is turned over where the first one is set or the last is not.
-/
def mixBit (round : Nat) (x y z : Bool) : Bool :=
  match round with
  | 0 => if x then y else z
  | 1 => if z then x else y
  | 2 => x ^^ y ^^ z
  | _ => y ^^ (x || !z)

def mixWord (round : Nat) (x y z : BitVec 32) : BitVec 32 :=
  BitVec.ofNat 32 (Nat.ofBits fun bit : Fin 32 => mixBit round x[bit] y[bit] z[bit])

/-- The words of a block in the order in which the operations take them, a round in each row. -/
def wordOrder : List Nat :=
  [0, 1, 2, 3, 4, 5, 6, 7, 8, 9, 10, 11, 12, 13, 14, 15,
   1, 6, 11, 0, 5, 10, 15, 4, 9, 14, 3, 8, 13, 2, 7, 12,
   5, 8, 11, 14, 1, 4, 7, 10, 13, 0, 3, 6, 9, 12, 15, 2,
   0, 7, 14, 5, 12, 3, 10, 1, 8, 15, 6, 13, 4, 11, 2, 9]

/-- The rotations of a round, in turn for the registers that it changes. -/
def rotationsOf (round : Nat) : List Nat :=
  [[7, 12, 17, 22], [5, 9, 14, 20], [4, 11, 16, 23], [6, 10, 15, 21]].getD round []

noncomputable def sineWord (step : Nat) : BitVec 32 :=
  BitVec.ofNat 32 ⌊2 ^ 32 * |Real.sin (step + 1)|⌋₊

abbrev Registers :=
  Fin 4 → BitVec 32

def initialRegisters : Registers :=
  ![0x67452301, 0xEFCDAB89, 0x98BADCFE, 0x10325476]

/-- The register that a step changes. It is the first one, and then each time the one before in a
circle.
-/
def turn (step : Nat) : Fin 4 :=
  -Fin.ofNat 4 step

/-- One of the 64 operations. It changes a single register by means of the three behind it. -/
noncomputable def operate (words : Nat → BitVec 32) (registers : Registers) (step : Nat)
    : Registers :=
  let own := turn step
  let sum :=
    registers own
    + mixWord (step / 16) (registers (own + 1)) (registers (own + 2)) (registers (own + 3))
    + words (wordOrder.getD step 0)
    + sineWord step
  let rotation := (rotationsOf (step / 16)).getD (step % 4) 0
  Function.update registers own (registers (own + 1) + sum.rotateLeft rotation)

/-- The registers when a number of blocks has gone by. The operations start from what they were
before a block, and that is added to what comes out.
-/
noncomputable def registersAfter (padded : List UInt8) : Nat → Registers
  | 0 => initialRegisters
  | block + 1 =>
      let before := registersAfter padded block
      before + (List.range 64).foldl (operate (blockWord padded block)) before

/-- The digest of a message has the registers behind its last block one after the other. -/
structure IsDigest (message digest : List UInt8) : Prop where
  size : digest.length = 16
  registers
    : ∃ padded,
        Pads message padded
        ∧ ∀ register : Fin 4,
            lowFirst ((digest.drop (4 * register)).take 4)
            = (registersAfter padded (padded.length / 64) register).toNat

end LogIntake.Md5
