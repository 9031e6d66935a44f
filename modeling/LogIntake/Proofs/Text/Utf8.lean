import LogIntake.Text.Utf8
import Mathlib.Tactic.SplitIfs

/-! Texts as bytes and back. The bytes of a character are taken together as one part whatever
follows them, so the bytes of a text decode to it, and the text can be cut anywhere between two
characters.
-/

namespace LogIntake.Text.Utf8

-----------------------------------------------------------------------------------------
-- The bytes of one character
-----------------------------------------------------------------------------------------

theorem toNat_ofNat {n : Nat} (small : n < 256) : (UInt8.ofNat n).toNat = n := by
  simp [Nat.mod_eq_of_lt small]

/-- The byte that continues a character with six bits of its code point. -/
def tailByte (bits : Nat) : UInt8 :=
  UInt8.ofNat (bits % 0x40 + 0x80)

theorem toNat_tailByte (bits : Nat) : (tailByte bits).toNat = bits % 0x40 + 0x80 :=
  toNat_ofNat (by omega)

theorem isContinuation_tailByte (bits : Nat) : isContinuation (tailByte bits) = true := by
  simp only [isContinuation, Bool.and_eq_true, decide_eq_true_eq, UInt8.le_iff_toNat_le,
    toNat_tailByte, UInt8.reduceToNat]
  omega

theorem payload_tailByte (bits : Nat) : payload (tailByte bits) = bits % 0x40 := by
  rw [payload, toNat_tailByte]
  omega

theorem parts_one {code : Nat} (low : code < 0x80) (rest : List UInt8)
    : parts (UInt8.ofNat code :: rest) = some (charOf code) :: parts rest := by
  have lead : (UInt8.ofNat code).toNat = code := toNat_ofNat (by omega)
  have ascii : UInt8.ofNat code < 0x80 := by
    rw [UInt8.lt_iff_toNat_lt, lead]
    exact low
  rw [parts.eq_def]
  simp only [ascii, if_true, lead]

/-- A code point below 0x800 is put together from two bytes. -/
theorem parts_two {code : Nat} (low : 0x80 ≤ code) (high : code < 0x800) (rest : List UInt8)
    : parts (UInt8.ofNat (code / 0x40 + 0xC0) :: tailByte code :: rest)
      = some (charOf code) :: parts rest := by
  have lead : (UInt8.ofNat (code / 0x40 + 0xC0)).toNat = code / 0x40 + 0xC0 :=
    toNat_ofNat (by omega)
  have whole : (code / 0x40 + 0xC0) % 0x20 * 0x40 + code % 0x40 = code := by omega
  generalize behind : parts rest = tail
  unfold parts
  dsimp only
  rw [if_neg, if_pos, if_pos (isContinuation_tailByte code), payload_tailByte, lead, whole,
    behind]
  all_goals
    simp only [Bool.and_eq_true, decide_eq_true_eq, UInt8.le_iff_toNat_le, UInt8.lt_iff_toNat_lt,
      lead, UInt8.reduceToNat]
    omega

/-- A code point below 0x10000 that is no surrogate is put together from three bytes. -/
theorem parts_three {code : Nat} (low : 0x800 ≤ code) (high : code < 0x10000)
    (scalar : code < 0xD800 ∨ 0xDFFF < code) (rest : List UInt8)
    : parts (UInt8.ofNat (code / 0x1000 + 0xE0) :: tailByte (code / 0x40) :: tailByte code :: rest)
      = some (charOf code) :: parts rest := by
  have lead : (UInt8.ofNat (code / 0x1000 + 0xE0)).toNat = code / 0x1000 + 0xE0 :=
    toNat_ofNat (by omega)
  have whole
      : (code / 0x1000 + 0xE0) % 0x10 * 0x1000 + code / 0x40 % 0x40 * 0x40 + code % 0x40
        = code := by
    have upper : code / 0x40 / 0x40 = code / 0x1000 := Nat.div_div_eq_div_mul ..
    omega
  have follows
      : followsLead3 (UInt8.ofNat (code / 0x1000 + 0xE0)) (tailByte (code / 0x40)) = true := by
    simp only [followsLead3, ← UInt8.toNat_inj, lead]
    split_ifs
    all_goals
      simp only [isContinuation, Bool.and_eq_true, decide_eq_true_eq, UInt8.le_iff_toNat_le,
        toNat_tailByte, UInt8.reduceToNat] at *
      omega
  generalize behind : parts rest = tail
  unfold parts
  dsimp only
  rw [if_neg, if_neg, if_pos, if_pos follows, if_pos (isContinuation_tailByte code),
    payload_tailByte, payload_tailByte, lead, whole,
    behind]
  all_goals
    simp only [Bool.and_eq_true, decide_eq_true_eq, UInt8.le_iff_toNat_le, UInt8.lt_iff_toNat_lt,
      lead, UInt8.reduceToNat]
    omega

/-- A code point from 0x10000 on is put together from four bytes. -/
theorem parts_four {code : Nat} (low : 0x10000 ≤ code) (high : code < 0x110000)
    (rest : List UInt8)
    : parts (UInt8.ofNat (code / 0x40000 + 0xF0) :: tailByte (code / 0x1000)
          :: tailByte (code / 0x40) :: tailByte code :: rest)
      = some (charOf code) :: parts rest := by
  have lead : (UInt8.ofNat (code / 0x40000 + 0xF0)).toNat = code / 0x40000 + 0xF0 :=
    toNat_ofNat (by omega)
  have whole
      : (code / 0x40000 + 0xF0) % 0x08 * 0x40000 + code / 0x1000 % 0x40 * 0x1000
          + code / 0x40 % 0x40 * 0x40 + code % 0x40
        = code := by
    have upper : code / 0x40 / 0x40 = code / 0x1000 := Nat.div_div_eq_div_mul ..
    have highest : code / 0x1000 / 0x40 = code / 0x40000 := Nat.div_div_eq_div_mul ..
    omega
  have follows
      : followsLead4 (UInt8.ofNat (code / 0x40000 + 0xF0)) (tailByte (code / 0x1000)) = true := by
    simp only [followsLead4, ← UInt8.toNat_inj, lead]
    split_ifs
    all_goals
      simp only [isContinuation, Bool.and_eq_true, decide_eq_true_eq, UInt8.le_iff_toNat_le,
        toNat_tailByte, UInt8.reduceToNat] at *
      omega
  generalize behind : parts rest = tail
  unfold parts
  dsimp only
  rw [if_neg, if_neg, if_neg, if_pos, if_pos follows, if_pos (isContinuation_tailByte _),
    if_pos (isContinuation_tailByte _), payload_tailByte, payload_tailByte, payload_tailByte, lead,
    whole, behind]
  all_goals
    simp only [Bool.and_eq_true, decide_eq_true_eq, UInt8.le_iff_toNat_le, UInt8.lt_iff_toNat_lt,
      lead, UInt8.reduceToNat]
    omega

/-- The bytes of a character are one part, whatever follows them. -/
theorem parts_utf8EncodeChar (c : Char) (rest : List UInt8)
    : parts (String.utf8EncodeChar c ++ rest) = some c :: parts rest := by
  have scalar : c.val.toNat < 0xD800 ∨ 0xDFFF < c.val.toNat ∧ c.val.toNat < 0x110000 := c.valid
  have own : some c :: parts rest = some (charOf c.val.toNat) :: parts rest :=
    congrArg (some · :: parts rest) (Char.ofNat_toNat c).symm
  rw [own]
  unfold String.utf8EncodeChar
  dsimp only
  split_ifs with one two three
  · exact parts_one (by omega) rest
  · rw [Nat.mod_eq_of_lt (by omega)]
    exact parts_two (by omega) (by omega) rest
  · rw [Nat.mod_eq_of_lt (by omega)]
    exact parts_three (by omega) (by omega) (by omega) rest
  · rw [Nat.mod_eq_of_lt (by omega)]
    exact parts_four (by omega) (by omega) rest

theorem utf8EncodeChar_of_ascii {c : Char} (ascii : c.toNat < 0x80)
    : String.utf8EncodeChar c = [UInt8.ofNat c.toNat] := by
  have low : c.val.toNat ≤ 0x7F := Nat.le_of_lt_succ ascii
  simp only [String.utf8EncodeChar, low, if_true]
  rfl

/-- All bytes of a character behind the ASCII ones lie behind the ASCII ones. -/
theorem le_of_mem_utf8EncodeChar {c : Char} (wide : 0x80 ≤ c.toNat) {byte : UInt8}
    (member : byte ∈ String.utf8EncodeChar c)
    : 0x80 ≤ byte := by
  have scalar : c.val.toNat < 0xD800 ∨ 0xDFFF < c.val.toNat ∧ c.val.toNat < 0x110000 := c.valid
  have notOne : ¬c.val.toNat ≤ 0x7F := Nat.not_le_of_lt wide
  unfold String.utf8EncodeChar at member
  dsimp only at member
  rw [if_neg notOne] at member
  split_ifs at member
  all_goals
    simp only [List.mem_cons, List.not_mem_nil, or_false] at member
    rcases member with rfl | rfl | rfl | rfl
  all_goals
    rw [UInt8.le_iff_toNat_le, toNat_ofNat (by omega)]
    exact Nat.le_trans (by decide) (Nat.le_add_left _ _)

-----------------------------------------------------------------------------------------
-- The bytes of a text
-----------------------------------------------------------------------------------------

/-- The bytes of characters. -/
def encodeChars (chars : List Char) : List UInt8 :=
  chars.flatMap String.utf8EncodeChar

theorem encode_ofList (chars : List Char) : encode (String.ofList chars) = encodeChars chars := by
  rw [encode, String.toList_ofList, encodeChars]

/-- The bytes are those that a text has by itself. -/
theorem encode_eq_toUTF8 (text : String) : encode text = text.toUTF8.data.toList := by
  rw [encode, String.toUTF8, ← String.utf8Encode_toList, List.utf8Encode, List.data_toByteArray]

theorem encode_append (first second : String)
    : encode (first ++ second) = encode first ++ encode second := by
  rw [encode, String.toList_append, List.flatMap_append]
  rfl

@[simp]
theorem encodeChars_nil : encodeChars [] = [] :=
  rfl

@[simp]
theorem encodeChars_cons (c : Char) (chars : List Char)
    : encodeChars (c :: chars) = String.utf8EncodeChar c ++ encodeChars chars :=
  List.flatMap_cons

@[simp]
theorem encodeChars_append (first second : List Char)
    : encodeChars (first ++ second) = encodeChars first ++ encodeChars second :=
  List.flatMap_append

/-- The bytes of a text are its characters, by induction on them. -/
theorem parts_encodeChars (chars : List Char)
    : parts (encodeChars chars) = chars.map some := by
  induction chars with
  | nil => rfl
  | cons c chars ih => rw [encodeChars_cons, parts_utf8EncodeChar, ih, List.map_cons]

/-- The bytes of a text decode to it. -/
theorem decode?_encodeChars (chars : List Char)
    : decode? (encodeChars chars) = some (String.ofList chars) := by
  have whole : (chars.map some).mapM id = some chars := by
    induction chars with
    | nil => rfl
    | cons c chars ih => rw [List.map_cons, List.mapM_cons, ih]; rfl
  rw [decode?, parts_encodeChars, whole]
  rfl

end LogIntake.Text.Utf8
