/-! The MD5 message digest: a message is padded to blocks of 64 bytes, and each block stirs
four words of 32 bits in 64 steps.
-/

namespace LogIntake.Md5

/-- The four words that the digest is made of. -/
structure State where
  a : UInt32
  b : UInt32
  c : UInt32
  d : UInt32
  deriving Repr, DecidableEq, Inhabited

def start : State :=
  ⟨0x67452301, 0xEFCDAB89, 0x98BADCFE, 0x10325476⟩

/-- What one step does: the constant that it adds, and how far it rotates. -/
structure Step where
  constant : UInt32
  rotation : UInt32
  deriving Repr, DecidableEq, Inhabited

/-- The constants of the 64 steps, the leading 32 bits of the fractions of absolute sines. -/
def constants : List UInt32 :=
  [0xD76AA478, 0xE8C7B756, 0x242070DB, 0xC1BDCEEE, 0xF57C0FAF, 0x4787C62A, 0xA8304613,
   0xFD469501, 0x698098D8, 0x8B44F7AF, 0xFFFF5BB1, 0x895CD7BE, 0x6B901122, 0xFD987193,
   0xA679438E, 0x49B40821, 0xF61E2562, 0xC040B340, 0x265E5A51, 0xE9B6C7AA, 0xD62F105D,
   0x02441453, 0xD8A1E681, 0xE7D3FBC8, 0x21E1CDE6, 0xC33707D6, 0xF4D50D87, 0x455A14ED,
   0xA9E3E905, 0xFCEFA3F8, 0x676F02D9, 0x8D2A4C8A, 0xFFFA3942, 0x8771F681, 0x6D9D6122,
   0xFDE5380C, 0xA4BEEA44, 0x4BDECFA9, 0xF6BB4B60, 0xBEBFBC70, 0x289B7EC6, 0xEAA127FA,
   0xD4EF3085, 0x04881D05, 0xD9D4D039, 0xE6DB99E5, 0x1FA27CF8, 0xC4AC5665, 0xF4292244,
   0x432AFF97, 0xAB9423A7, 0xFC93A039, 0x655B59C3, 0x8F0CCC92, 0xFFEFF47D, 0x85845DD1,
   0x6FA87E4F, 0xFE2CE6E0, 0xA3014314, 0x4E0811A1, 0xF7537E82, 0xBD3AF235, 0x2AD7D2BB,
   0xEB86D391]

/-- The rotations of four steps in each of the four rounds, which repeat within the round. -/
def rotations (round : Nat) : List UInt32 :=
  match round with
  | 0 => [7, 12, 17, 22]
  | 1 => [5, 9, 14, 20]
  | 2 => [4, 11, 16, 23]
  | _ => [6, 10, 15, 21]

/-- The bitwise function of a round. -/
def mix (round : Nat) (x y z : UInt32) : UInt32 :=
  match round with
  | 0 => (x &&& y) ||| (~~~x &&& z)
  | 1 => (x &&& z) ||| (y &&& ~~~z)
  | 2 => x ^^^ y ^^^ z
  | _ => y ^^^ (x ||| ~~~z)

def wordIndex (step : Nat) : Nat :=
  match step / 16 with
  | 0 => step % 16
  | 1 => (5 * step + 1) % 16
  | 2 => (3 * step + 5) % 16
  | _ => (7 * step) % 16

/-- Rotates a word to the left by between 1 and 31 bits. -/
def rotateLeft (word amount : UInt32) : UInt32 :=
  (word <<< amount) ||| (word >>> (32 - amount))

/-- One step of the 64. -/
def runStep (block : List UInt32) (state : State) (step : Nat) : State :=
  let sum := state.a + mix (step / 16) state.b state.c state.d
    + block.getD (wordIndex step) 0 + constants.getD step 0
  let rotation := (rotations (step / 16)).getD (step % 4) 0
  ⟨state.d, state.b + rotateLeft sum rotation, state.b, state.c⟩

def compress (state : State) (block : List UInt32) : State :=
  let next := (List.range 64).foldl (runStep block) state
  ⟨state.a + next.a, state.b + next.b, state.c + next.c, state.d + next.d⟩

/-- The bytes of a number, least significant first. -/
def littleEndian : Nat → Nat → List UInt8
  | 0, _ => []
  | count + 1, n => UInt8.ofNat (n % 256) :: littleEndian count (n / 256)

/-- The message followed by a single one bit, zero bits up to 8 bytes short of a whole block,
and the number of its bits.
-/
def pad (message : List UInt8) : List UInt8 :=
  message ++ 0x80 :: List.replicate ((119 - message.length % 64) % 64) 0
    ++ littleEndian 8 (8 * message.length)

/-- The words of a byte string, four bytes each, least significant first. -/
def words : List UInt8 → List UInt32
  | a :: b :: c :: d :: rest =>
      (a.toUInt32 ||| (b.toUInt32 <<< 8) ||| (c.toUInt32 <<< 16) ||| (d.toUInt32 <<< 24))
        :: words rest
  | _ => []

/-- Stirs the blocks of a list of words, the first argument bounding their number. -/
def compressAll : Nat → State → List UInt32 → State
  | 0, state, _ => state
  | _ + 1, state, [] => state
  | blocks + 1, state, word :: rest =>
      compressAll blocks (compress state ((word :: rest).take 16)) ((word :: rest).drop 16)

def digest (message : List UInt8) : List UInt8 :=
  let padded := words (pad message)
  let state := compressAll padded.length start padded
  [state.a, state.b, state.c, state.d].flatMap fun word => littleEndian 4 word.toNat

end LogIntake.Md5
