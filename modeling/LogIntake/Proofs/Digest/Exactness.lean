import LogIntake.Proofs.Digest.Definition
import LogIntake.Proofs.Digest.SineTable
import LogIntake.Proofs.Text.Utf8

/-! The digest that is computed is the digest by its definition. The computation moves four words
along at every step where the definition changes registers in place, so a state stands for registers
that are turned by the number of steps.
-/

namespace LogIntake.Md5

-----------------------------------------------------------------------------------------
-- Bytes
-----------------------------------------------------------------------------------------

theorem lowFirst_nil : lowFirst [] = 0 :=
  rfl

theorem lowFirst_cons (byte : UInt8) (bytes : List UInt8)
    : lowFirst (byte :: bytes) = byte.toNat + 256 * lowFirst bytes :=
  rfl

theorem length_littleEndian (count n : Nat) : (littleEndian count n).length = count := by
  induction count generalizing n with
  | zero => rfl
  | succ count ih => rw [littleEndian, List.length_cons, ih]

/-- As many bytes as are asked for denote what they hold of a number, by induction on their count.
-/
theorem lowFirst_littleEndian (count n : Nat)
    : lowFirst (littleEndian count n) = n % 256 ^ count := by
  induction count generalizing n with
  | zero => rw [pow_zero, Nat.mod_one, littleEndian, lowFirst_nil]
  | succ count ih =>
      have byte : (UInt8.ofNat (n % 256)).toNat = n % 256 :=
        Text.Utf8.toNat_ofNat (Nat.mod_lt _ (by decide))
      rw [littleEndian, lowFirst_cons, ih, byte, pow_succ', Nat.mod_mul]

/-- Bytes are determined by their number and what they denote. -/
theorem lowFirst_inj {first second : List UInt8} (size : first.length = second.length)
    (same : lowFirst first = lowFirst second)
    : first = second := by
  have small (bytes : List UInt8) : ∀ digit ∈ bytes.map UInt8.toNat, digit < 256 := by
    intro digit member
    obtain ⟨byte, _, rfl⟩ := List.mem_map.mp member
    exact byte.toNat_lt
  have sizes : (first.map UInt8.toNat).length = (second.map UInt8.toNat).length := by
    rw [List.length_map, List.length_map, size]
  have digits := Nat.ofDigits_inj_of_len_eq (by decide) sizes (small first) (small second) same
  exact List.map_injective_iff.mpr (fun _ _ => UInt8.toNat_inj.mp) digits

/-- Sixteen bytes are determined by the four words that they denote. -/
theorem eq_of_words {first second : List UInt8} (size : first.length = 16)
    (other : second.length = 16)
    (same : ∀ place : Fin 4,
      lowFirst ((first.drop (4 * place)).take 4) = lowFirst ((second.drop (4 * place)).take 4))
    : first = second := by
  have chunks (place : Fin 4)
      : (first.drop (4 * place)).take 4 = (second.drop (4 * place)).take 4 :=
    lowFirst_inj (by simp only [List.length_take, List.length_drop, size, other]) (same place)
  apply List.ext_getElem?'
  intro index bound
  rw [size, other, Nat.max_self] at bound
  have chunk := congrArg (·[index % 4]?) (chunks ⟨index / 4, by omega⟩)
  have position : 4 * (index / 4) + index % 4 = index := Nat.div_add_mod index 4
  simp only [List.getElem?_take_of_lt (Nat.mod_lt index (show 0 < 4 by decide)),
    List.getElem?_drop, position] at chunk
  exact chunk

-----------------------------------------------------------------------------------------
-- Padding
-----------------------------------------------------------------------------------------

/-- There is one padding, since whole blocks leave no choice for the number of zero bytes. -/
theorem pads_iff {message padded : List UInt8} : Pads message padded ↔ padded = pad message := by
  constructor
  · intro pads
    obtain ⟨zeros, size, rfl, few, bytes, number⟩ := pads.parts
    have whole := pads.whole
    simp only [List.length_append, List.length_cons, List.length_replicate, bytes] at whole
    obtain rfl : zeros = (119 - message.length % 64) % 64 := by omega
    obtain rfl : size = littleEndian 8 (8 * message.length) := by
      apply lowFirst_inj
      · rw [bytes, length_littleEndian]
      · rw [number, lowFirst_littleEndian]
        rfl
    rfl
  · intro same
    subst same
    refine ⟨⟨_, _, rfl, Nat.mod_lt _ (by decide), length_littleEndian _ _, ?_⟩, ?_⟩
    · rw [lowFirst_littleEndian]
      rfl
    · simp only [pad, List.length_append, List.length_cons, List.length_replicate,
        length_littleEndian]
      omega

-----------------------------------------------------------------------------------------
-- Words
-----------------------------------------------------------------------------------------

/-- A word is the one that its number denotes. -/
theorem toBitVec_eq_ofNat {word : UInt32} {n : Nat} (denotes : word.toNat = n)
    : word.toBitVec = BitVec.ofNat 32 n := by
  rw [← denotes, ← UInt32.toNat_toBitVec, BitVec.ofNat_toNat, BitVec.setWidth_eq]

/-- A byte that is put above all bits of a word adds to it. -/
theorem toNat_or_shiftLeft {low width : UInt32} (high : UInt8) (narrow : width.toNat ≤ 24)
    (small : low.toNat < 2 ^ width.toNat)
    : (low ||| high.toUInt32 <<< width).toNat = low.toNat + 2 ^ width.toNat * high.toNat := by
  have fits : high.toNat <<< width.toNat < 2 ^ 32 := by
    calc high.toNat <<< width.toNat
        = high.toNat * 2 ^ width.toNat := Nat.shiftLeft_eq _ _
      _ ≤ high.toNat * 2 ^ 24 := by gcongr; decide
      _ < 2 ^ 32 := by have := high.toNat_lt; omega
  have unwrapped : width.toNat % 32 = width.toNat := Nat.mod_eq_of_lt (by omega)
  rw [UInt32.toNat_or, UInt32.toNat_shiftLeft, UInt8.toNat_toUInt32, unwrapped,
    Nat.mod_eq_of_lt fits, Nat.or_comm, ← Nat.shiftLeft_add_eq_or_of_lt small, Nat.shiftLeft_eq,
    Nat.add_comm, Nat.mul_comm]

/-- Four bytes make the word that they denote. -/
theorem toNat_word (a b c d : UInt8)
    : (a.toUInt32 ||| (b.toUInt32 <<< 8) ||| (c.toUInt32 <<< 16) ||| (d.toUInt32 <<< 24)).toNat
      = lowFirst [a, b, c, d] := by
  have first := a.toNat_lt
  have second := b.toNat_lt
  have third := c.toNat_lt
  have one : a.toUInt32.toNat = a.toNat := UInt8.toNat_toUInt32 a
  have two : (a.toUInt32 ||| b.toUInt32 <<< 8).toNat = a.toNat + 2 ^ 8 * b.toNat :=
    one ▸ toNat_or_shiftLeft b (by decide) (one ▸ first)
  have three
      : (a.toUInt32 ||| b.toUInt32 <<< 8 ||| c.toUInt32 <<< 16).toNat
        = a.toNat + 2 ^ 8 * b.toNat + 2 ^ 16 * c.toNat :=
    two ▸ toNat_or_shiftLeft c (by decide) (two ▸ (by change _ < 2 ^ 16; omega))
  have four
      : (a.toUInt32 ||| b.toUInt32 <<< 8 ||| c.toUInt32 <<< 16 ||| d.toUInt32 <<< 24).toNat
        = a.toNat + 2 ^ 8 * b.toNat + 2 ^ 16 * c.toNat + 2 ^ 24 * d.toNat :=
    three ▸ toNat_or_shiftLeft d (by decide) (three ▸ (by change _ < 2 ^ 24; omega))
  rw [four, lowFirst_cons, lowFirst_cons, lowFirst_cons, lowFirst_cons, lowFirst_nil]
  omega

theorem length_words (bytes : List UInt8) : (words bytes).length = bytes.length / 4 := by
  induction bytes using words.induct with
  | case1 a b c d rest ih =>
      simp only [words, List.length_cons, ih]
      omega
  | case2 bytes short =>
      match bytes with
      | [] | [_] | [_, _] | [_, _, _] => simp [words]
      | a :: b :: c :: d :: rest => exact absurd rfl (short a b c d rest)

/-- Each word is made of four bytes in their order, by induction on its place. -/
theorem toNat_getD_words {bytes : List UInt8} {index : Nat} (bound : 4 * index + 4 ≤ bytes.length)
    : ((words bytes).getD index 0).toNat = lowFirst ((bytes.drop (4 * index)).take 4) := by
  induction index generalizing bytes with
  | zero =>
      match bytes, bound with
      | a :: b :: c :: d :: rest, _ => exact toNat_word a b c d
  | succ index ih =>
      match bytes, bound with
      | a :: b :: c :: d :: rest, bound =>
          exact ih (by simp only [List.length_cons] at bound; omega)

/-- The words of a block are those that it has by definition. -/
theorem toBitVec_getD_block {padded : List UInt8} {block index : Nat}
    (bound : 64 * (block + 1) ≤ padded.length) (within : index < 16)
    : ((((words padded).drop (16 * block)).take 16).getD index 0).toBitVec
      = blockWord padded block index := by
  have position : 4 * (16 * block + index) = 64 * block + 4 * index := by omega
  have word : ((words padded).getD (16 * block + index) 0).toNat
      = lowFirst ((padded.drop (64 * block + 4 * index)).take 4) := by
    rw [toNat_getD_words (by omega), position]
  rw [List.getD_eq_getElem?_getD, List.getElem?_take_of_lt within, List.getElem?_drop,
    ← List.getD_eq_getElem?_getD]
  exact toBitVec_eq_ofNat word

-----------------------------------------------------------------------------------------
-- Operations
-----------------------------------------------------------------------------------------

theorem toBitVec_rotateLeft {word amount : UInt32} (positive : 0 < amount.toNat)
    (bound : amount.toNat < 32)
    : (rotateLeft word amount).toBitVec = word.toBitVec.rotateLeft amount.toNat := by
  have back : (32 - amount).toNat = 32 - amount.toNat :=
    UInt32.toNat_sub_of_le _ _ (UInt32.le_iff_toNat_le.mpr bound.le)
  have short : 32 - amount.toNat < 32 := by omega
  apply BitVec.eq_of_toNat_eq
  rw [rotateLeft, UInt32.toNat_toBitVec, UInt32.toNat_or, UInt32.toNat_shiftLeft,
    UInt32.toNat_shiftRight, back, Nat.mod_eq_of_lt bound, Nat.mod_eq_of_lt short,
    BitVec.rotateLeft_eq_rotateLeftAux_of_lt bound]
  rfl

/-- The words of each round are mixed bit by bit. -/
theorem toBitVec_mix (round : Nat) (x y z : UInt32)
    : (mix round x y z).toBitVec = mixWord round x.toBitVec y.toBitVec z.toBitVec := by
  apply BitVec.eq_of_getLsbD_eq
  intro bit bound
  rw [mixWord, BitVec.getLsbD_ofNat, decide_eq_true bound, Bool.true_and,
    Nat.testBit_ofBits_lt _ _ bound]
  match round with
  | 0 => cases chooses : x.toBitVec[bit] <;> simp [mix, mixBit, bound, chooses]
  | 1 => cases chooses : z.toBitVec[bit] <;> simp [mix, mixBit, bound, chooses]
  | 2 => simp [mix, mixBit, bound]
  | round + 3 => simp [mix, mixBit, bound]

theorem toBitVec_constant {step : Nat} (bound : step < 64)
    : (constants.getD step 0).toBitVec = sineWord step :=
  toBitVec_eq_ofNat (toNat_constant bound)

/-- The formulas for the words of the rounds give their table. -/
theorem wordIndex_eq
    : ∀ step < 64, wordIndex step = wordOrder.getD step 0 ∧ wordIndex step < 16 := by
  decide

theorem rotations_eq
    : ∀ round < 4, ∀ place < 4,
        let amount := (rotations round).getD place 0
        amount.toNat = (rotationsOf round).getD place 0
        ∧ 0 < amount.toNat
        ∧ amount.toNat < 32 := by
  decide

theorem turn_succ (step : Nat) : turn (step + 1) = turn step - 1 := by
  have next : Fin.ofNat 4 (step + 1) = Fin.ofNat 4 step + 1 := Fin.ext (by simp [Fin.val_add])
  have circle : ∀ place : Fin 4, -(place + 1) = -place - 1 := by decide
  rw [turn, next, circle, turn]

/-- The words of a state are those of the registers from the one on whose turn it is. -/
structure State.Holds (state : State) (own : Fin 4) (registers : Registers) : Prop where
  a : state.a.toBitVec = registers own
  b : state.b.toBitVec = registers (own + 1)
  c : state.c.toBitVec = registers (own + 2)
  d : state.d.toBitVec = registers (own + 3)

/-- The registers of the next turn, in the order in which a state has them. -/
theorem before_turn
    : ∀ own : Fin 4,
        own - 1 = own + 3 ∧ own - 1 + 1 = own ∧ own - 1 + 2 = own + 1 ∧ own - 1 + 3 = own + 2 := by
  decide

theorem others_ne : ∀ own : Fin 4, own + 1 ≠ own ∧ own + 2 ≠ own ∧ own + 3 ≠ own := by
  decide

section Block

variable {block : List UInt32} {words : Nat → BitVec 32} {state : State} {registers : Registers}

/-- A step of the computation is an operation on the registers. -/
theorem State.Holds.runStep
    (same : ∀ index < 16, (block.getD index 0).toBitVec = words index) {step : Nat}
    (bound : step < 64) (holds : state.Holds (turn step) registers)
    : (Md5.runStep block state step).Holds (turn (step + 1)) (operate words registers step) := by
  obtain ⟨order, within⟩ := wordIndex_eq step bound
  obtain ⟨rotation, positive, below⟩ := rotations_eq (step / 16) (by omega) (step % 4) (by omega)
  obtain ⟨first, second, third, fourth⟩ := before_turn (turn step)
  obtain ⟨after, opposite, ahead⟩ := others_ne (turn step)
  have word : (block.getD (wordIndex step) 0).toBitVec = words (wordOrder.getD step 0) := by
    rw [same _ within, order]
  rw [turn_succ]
  constructor
  case a =>
    rw [first, operate, Function.update_of_ne ahead]
    exact holds.d
  case b =>
    rw [second, operate, Function.update_self, ← rotation, Md5.runStep, UInt32.toBitVec_add,
      toBitVec_rotateLeft positive below, UInt32.toBitVec_add, UInt32.toBitVec_add,
      UInt32.toBitVec_add, toBitVec_mix, toBitVec_constant bound, word, holds.a, holds.b, holds.c,
      holds.d]
  case c =>
    rw [third, operate, Function.update_of_ne after]
    exact holds.b
  case d =>
    rw [fourth, operate, Function.update_of_ne opposite]
    exact holds.c

/-- The first steps are as many operations, by induction from the last one. -/
theorem State.Holds.runSteps
    (same : ∀ index < 16, (block.getD index 0).toBitVec = words index)
    (holds : state.Holds 0 registers) {count : Nat} (bound : count ≤ 64)
    : ((List.range count).foldl (Md5.runStep block) state).Holds (turn count)
        ((List.range count).foldl (operate words) registers) := by
  induction count with
  | zero => exact holds
  | succ count ih =>
      rw [List.range_succ, List.foldl_concat, List.foldl_concat]
      exact (ih (by omega)).runStep same (by omega)

/-- A block changes the registers as it should. After 64 steps each word is back in its place. -/
theorem State.Holds.compress
    (same : ∀ index < 16, (block.getD index 0).toBitVec = words index)
    (holds : state.Holds 0 registers)
    : (Md5.compress state block).Holds 0
        (registers + (List.range 64).foldl (operate words) registers) := by
  have next := holds.runSteps same le_rfl
  rw [show turn 64 = 0 by decide] at next
  constructor <;> rw [Md5.compress, UInt32.toBitVec_add, Pi.add_apply]
  · rw [holds.a, next.a]
  · rw [holds.b, next.b]
  · rw [holds.c, next.c]
  · rw [holds.d, next.d]

end Block

-----------------------------------------------------------------------------------------
-- Blocks
-----------------------------------------------------------------------------------------

theorem compressAll_of_ne_nil {blocks : Nat} {state : State} {words : List UInt32}
    (more : words ≠ [])
    : compressAll (blocks + 1) state words
      = compressAll blocks (compress state (words.take 16)) (words.drop 16) := by
  cases words with
  | nil => exact absurd rfl more
  | cons word rest => rfl

/-- The blocks that are left change the registers as they should, by induction on their number. -/
theorem holds_compressAll {padded : List UInt8} {state : State} {bound done left : Nat}
    (whole : padded.length = 64 * (done + left)) (enough : left ≤ bound)
    (holds : state.Holds 0 (registersAfter padded done))
    : (compressAll bound state ((words padded).drop (16 * done))).Holds 0
        (registersAfter padded (done + left)) := by
  have size := length_words padded
  induction left generalizing bound done state with
  | zero =>
      have none : (words padded).drop (16 * done) = [] := List.drop_of_length_le (by omega)
      rw [none]
      cases bound <;> exact holds
  | succ left ih =>
      obtain ⟨bound, rfl⟩ := Nat.exists_eq_add_of_le' (show 1 ≤ bound by omega)
      have more : (words padded).drop (16 * done) ≠ [] := by
        rw [Ne, List.drop_eq_nil_iff]
        omega
      have block := holds.compress fun index within =>
        toBitVec_getD_block (show 64 * (done + 1) ≤ padded.length by omega) within
      have count : done + (left + 1) = done + 1 + left := by omega
      rw [compressAll_of_ne_nil more, List.drop_drop, ← Nat.mul_succ, count]
      exact ih (by omega) (by omega) block

theorem length_digest (message : List UInt8) : (digest message).length = 16 := by
  simp [digest, length_littleEndian]

/-- Each word of a state is written with its lowest byte first. -/
theorem State.Holds.bytes {state : State} {registers : Registers}
    (holds : state.Holds 0 registers) (register : Fin 4)
    : let bytes :=
        [state.a, state.b, state.c, state.d].flatMap fun word => littleEndian 4 word.toNat
      lowFirst ((bytes.drop (4 * register)).take 4) = (registers register).toNat := by
  have written (word : UInt32) : lowFirst (littleEndian 4 word.toNat) = word.toBitVec.toNat := by
    rw [lowFirst_littleEndian, UInt32.toNat_toBitVec]
    exact Nat.mod_eq_of_lt word.toNat_lt
  obtain ⟨a, b, c, d⟩ := holds
  match register with
  | 0 => exact (written state.a).trans (congrArg BitVec.toNat a)
  | 1 => exact (written state.b).trans (congrArg BitVec.toNat b)
  | 2 => exact (written state.c).trans (congrArg BitVec.toNat c)
  | 3 => exact (written state.d).trans (congrArg BitVec.toNat d)

theorem isDigest_digest (message : List UInt8) : IsDigest message (digest message) where
  size := length_digest message
  registers := by
    refine ⟨pad message, pads_iff.mpr rfl, ?_⟩
    have whole : 64 ∣ (pad message).length := (pads_iff.mpr rfl).whole
    have initially : start.Holds 0 (registersAfter (pad message) 0) := by
      constructor <;> rfl
    have blocks : (pad message).length / 64 ≤ (words (pad message)).length := by
      rw [length_words]
      omega
    have behind := holds_compressAll (by omega) blocks initially
    rw [Nat.zero_add] at behind
    exact behind.bytes

/-- The digest that is computed is the one by definition, and there is no other. -/
theorem isDigest_iff {message bytes : List UInt8}
    : IsDigest message bytes ↔ bytes = digest message := by
  constructor
  · intro defined
    have computed := isDigest_digest message
    obtain ⟨padded, pads, registers⟩ := defined.registers
    obtain ⟨others, same, agree⟩ := computed.registers
    obtain rfl := pads_iff.mp pads
    obtain rfl := pads_iff.mp same
    exact eq_of_words defined.size computed.size fun place =>
      (registers place).trans (agree place).symm
  · intro same
    exact same ▸ isDigest_digest message

end LogIntake.Md5
