import LogIntake.Proofs.Text.Utf8

/-! Bytes that are those of a text. Bytes without broken parts are the bytes of their characters, and
such bytes can be cut in front of a character and behind it, since no byte that continues a
character begins one.
-/

namespace LogIntake.Text.Utf8

-----------------------------------------------------------------------------------------
-- Characters put together from bytes
-----------------------------------------------------------------------------------------

theorem utf8EncodeChar_charOf {code : Nat} (valid : code.isValidChar)
    : String.utf8EncodeChar (charOf code)
      = if code ≤ 0x7F then [UInt8.ofNat code]
        else if code ≤ 0x7FF then [UInt8.ofNat (code / 0x40 + 0xC0), tailByte code]
        else if code ≤ 0xFFFF then
          [UInt8.ofNat (code / 0x1000 + 0xE0), tailByte (code / 0x40), tailByte code]
        else
          [UInt8.ofNat (code / 0x40000 + 0xF0), tailByte (code / 0x1000), tailByte (code / 0x40),
           tailByte code] := by
  have own : (charOf code).val.toNat = code := by
    rw [charOf, Char.ofNat, dif_pos valid]
    rfl
  have scalar : code < 0xD800 ∨ 0xDFFF < code ∧ code < 0x110000 := valid
  unfold String.utf8EncodeChar
  dsimp only
  rw [own]
  split_ifs
  · rfl
  all_goals
    rw [Nat.mod_eq_of_lt (by omega)]
    rfl

/-- Six bits of a continuation byte are the whole byte. -/
theorem tailByte_of_payload {byte : UInt8} (continues : isContinuation byte = true) {bits : Nat}
    (same : bits % 0x40 = payload byte)
    : tailByte bits = byte := by
  simp only [isContinuation, Bool.and_eq_true, decide_eq_true_eq, UInt8.le_iff_toNat_le,
    UInt8.reduceToNat] at continues
  rw [payload] at same
  rw [← UInt8.toNat_inj, toNat_tailByte]
  omega

theorem leadByte (byte : UInt8) {n : Nat} (same : n = byte.toNat) : UInt8.ofNat n = byte := by
  rw [same, UInt8.ofNat_toNat]

theorem utf8EncodeChar_one {lead : UInt8} (ascii : lead < 0x80)
    : String.utf8EncodeChar (charOf lead.toNat) = [lead] := by
  have low : lead.toNat < 0x80 := UInt8.lt_iff_toNat_lt.mp ascii
  rw [utf8EncodeChar_charOf (.inl (by omega)), if_pos (by omega), UInt8.ofNat_toNat]

theorem utf8EncodeChar_two {lead second : UInt8} (starts : (0xC2 ≤ lead && lead ≤ 0xDF) = true)
    (continues : isContinuation second = true)
    : String.utf8EncodeChar (charOf (lead.toNat % 0x20 * 0x40 + payload second))
      = [lead, second] := by
  simp only [Bool.and_eq_true, decide_eq_true_eq, UInt8.le_iff_toNat_le, UInt8.reduceToNat]
    at starts
  have bits : payload second < 0x40 := Nat.mod_lt _ (by decide)
  rw [utf8EncodeChar_charOf (.inl (by omega)), if_neg (by omega), if_pos (by omega),
    leadByte lead (by omega), tailByte_of_payload continues (by omega)]

/-- The bytes that may follow the lead byte of three are continuation bytes, and they leave no
overlong form and no surrogate.
-/
theorem followsLead3_bounds {lead second : UInt8} (follows : followsLead3 lead second = true)
    : isContinuation second = true
      ∧ (lead.toNat = 0xE0 → 0x20 ≤ payload second)
      ∧ (lead.toNat = 0xED → payload second < 0x20) := by
  simp only [followsLead3, ← UInt8.toNat_inj, UInt8.reduceToNat] at follows
  unfold payload
  split_ifs at follows
  all_goals
    simp only [isContinuation, Bool.and_eq_true, decide_eq_true_eq, UInt8.le_iff_toNat_le,
      UInt8.reduceToNat] at follows ⊢
    omega

/-- The bytes that may follow the lead byte of four are continuation bytes, and they leave no
overlong form and no number past the last code point.
-/
theorem followsLead4_bounds {lead second : UInt8} (follows : followsLead4 lead second = true)
    : isContinuation second = true
      ∧ (lead.toNat = 0xF0 → 0x10 ≤ payload second)
      ∧ (lead.toNat = 0xF4 → payload second < 0x10) := by
  simp only [followsLead4, ← UInt8.toNat_inj, UInt8.reduceToNat] at follows
  unfold payload
  split_ifs at follows
  all_goals
    simp only [isContinuation, Bool.and_eq_true, decide_eq_true_eq, UInt8.le_iff_toNat_le,
      UInt8.reduceToNat] at follows ⊢
    omega

theorem utf8EncodeChar_three {lead second third : UInt8}
    (starts : (0xE0 ≤ lead && lead ≤ 0xEF) = true) (follows : followsLead3 lead second = true)
    (continues : isContinuation third = true)
    : String.utf8EncodeChar
          (charOf (lead.toNat % 0x10 * 0x1000 + payload second * 0x40 + payload third))
      = [lead, second, third] := by
  simp only [Bool.and_eq_true, decide_eq_true_eq, UInt8.le_iff_toNat_le, UInt8.reduceToNat]
    at starts
  obtain ⟨secondContinues, overlong, surrogate⟩ := followsLead3_bounds follows
  have bits : payload second < 0x40 := Nat.mod_lt _ (by decide)
  have lastBits : payload third < 0x40 := Nat.mod_lt _ (by decide)
  rw [utf8EncodeChar_charOf, if_neg (by omega), if_neg (by omega), if_pos (by omega),
    leadByte lead (by omega), tailByte_of_payload secondContinues (by omega),
    tailByte_of_payload continues (by omega)]
  unfold Nat.isValidChar
  omega

theorem utf8EncodeChar_four {lead second third fourth : UInt8}
    (starts : (0xF0 ≤ lead && lead ≤ 0xF4) = true) (follows : followsLead4 lead second = true)
    (continues : isContinuation third = true) (ends : isContinuation fourth = true)
    : String.utf8EncodeChar
          (charOf (lead.toNat % 0x08 * 0x40000 + payload second * 0x1000 + payload third * 0x40
            + payload fourth))
      = [lead, second, third, fourth] := by
  simp only [Bool.and_eq_true, decide_eq_true_eq, UInt8.le_iff_toNat_le, UInt8.reduceToNat]
    at starts
  obtain ⟨secondContinues, overlong, past⟩ := followsLead4_bounds follows
  have bits : payload second < 0x40 := Nat.mod_lt _ (by decide)
  have middleBits : payload third < 0x40 := Nat.mod_lt _ (by decide)
  have lastBits : payload fourth < 0x40 := Nat.mod_lt _ (by decide)
  rw [utf8EncodeChar_charOf, if_neg (by omega), if_neg (by omega), if_neg (by omega),
    leadByte lead (by omega), tailByte_of_payload secondContinues (by omega),
    tailByte_of_payload continues (by omega), tailByte_of_payload ends (by omega)]
  unfold Nat.isValidChar
  omega

-----------------------------------------------------------------------------------------
-- Bytes without broken parts
-----------------------------------------------------------------------------------------

/-- A character in front of the bytes of characters, if these are what the other parts are. -/
theorem eq_encodeChars_of_cons {c : Char} {taken rest : List UInt8} {behind : List (Option Char)}
    {chars : List Char} (char : String.utf8EncodeChar c = taken)
    (ih : ∀ {chars}, behind = chars.map some → rest = encodeChars chars)
    (whole : some c :: behind = chars.map some)
    : taken ++ rest = encodeChars chars := by
  cases chars with
  | nil => cases whole
  | cons d chars =>
      obtain ⟨same, others⟩ := List.cons.inj whole
      obtain rfl := Option.some.inj same
      rw [encodeChars_cons, char, ih others]

theorem none_cons_ne_map_some {behind : List (Option Char)} {chars : List Char}
    : none :: behind ≠ chars.map some := by
  cases chars <;> simp

/-- Bytes without broken parts are the bytes of their characters, by cases on the parts. -/
theorem eq_encodeChars_of_parts {bytes : List UInt8} {chars : List Char}
    (whole : parts bytes = chars.map some)
    : bytes = encodeChars chars := by
  fun_induction parts bytes generalizing chars
  case case1 => rw [List.map_eq_nil_iff.mp whole.symm, encodeChars_nil]
  case case2 lead rest ascii ih =>
    exact eq_encodeChars_of_cons (utf8EncodeChar_one ascii) ih whole
  case case3 lead _ starts second rest continues ih =>
    exact eq_encodeChars_of_cons (utf8EncodeChar_two starts continues) ih whole
  case case6 lead _ _ starts second follows third rest continues ih =>
    exact eq_encodeChars_of_cons (utf8EncodeChar_three starts follows continues) ih whole
  case case11 lead _ _ _ starts second follows third continues fourth rest ends ih =>
    exact eq_encodeChars_of_cons (utf8EncodeChar_four starts follows continues ends) ih whole
  -- Every other case has a broken part.
  all_goals exact absurd whole none_cons_ne_map_some

theorem eq_map_some_of_mapM_id {parts : List (Option Char)} {chars : List Char}
    (whole : parts.mapM id = some chars)
    : parts = chars.map some := by
  induction parts generalizing chars with
  | nil =>
      cases whole
      rfl
  | cons part parts ih =>
      rw [List.mapM_cons] at whole
      obtain ⟨c, first, whole⟩ := Option.bind_eq_some_iff.mp whole
      obtain ⟨others, rest, returned⟩ := Option.bind_eq_some_iff.mp whole
      cases returned
      rw [List.map_cons, ih rest, ← first, id]

/-- Bytes decode exactly to the text that they are the bytes of. -/
theorem decode?_eq_some_iff {bytes : List UInt8} {text : String}
    : decode? bytes = some text ↔ bytes = encode text := by
  constructor
  · intro decoded
    obtain ⟨chars, whole, rfl⟩ := Option.map_eq_some_iff.mp decoded
    rw [encode_ofList]
    exact eq_encodeChars_of_parts (eq_map_some_of_mapM_id whole)
  · rintro rfl
    have decoded := decode?_encodeChars text.toList
    rwa [String.ofList_toList] at decoded

theorem parts_encode (text : String) : parts (encode text) = text.toList.map some :=
  parts_encodeChars text.toList

theorem encodeChars_inj {chars others : List Char}
    : encodeChars chars = encodeChars others ↔ chars = others := by
  refine ⟨fun same => ?_, congrArg encodeChars⟩
  have read := congrArg parts same
  rw [parts_encodeChars, parts_encodeChars] at read
  exact (List.map_inj_right fun _ _ => Option.some.inj).mp read

/-- Nothing is replaced in the bytes of a text. -/
theorem decodeLossy_encode (text : String) : decodeLossy (encode text) = text := by
  have kept : (fun part : Option Char => part.getD replacement) ∘ some = id := rfl
  rw [decodeLossy, parts_encode, List.map_map, kept, List.map_id, String.ofList_toList]

-----------------------------------------------------------------------------------------
-- Bytes of texts, cut between two characters
-----------------------------------------------------------------------------------------

/-- The bytes of some text. -/
def IsText (bytes : List UInt8) : Prop :=
  ∃ text, encode text = bytes

theorem isText_iff {bytes : List UInt8} : IsText bytes ↔ ∃ chars, encodeChars chars = bytes := by
  constructor
  · rintro ⟨text, own⟩
    exact ⟨text.toList, own⟩
  · rintro ⟨chars, own⟩
    exact ⟨String.ofList chars, (encode_ofList chars).trans own⟩

theorem isText_nil : IsText [] :=
  ⟨"", rfl⟩

theorem isText_utf8EncodeChar (c : Char) : IsText (String.utf8EncodeChar c) :=
  isText_iff.mpr ⟨[c], by simp⟩

theorem IsText.append {first second : List UInt8} (before : IsText first) (behind : IsText second)
    : IsText (first ++ second) := by
  obtain ⟨text, rfl⟩ := before
  obtain ⟨other, rfl⟩ := behind
  exact ⟨text ++ other, encode_append text other⟩

theorem isText_of_ascii {bytes : List UInt8} (ascii : ∀ byte ∈ bytes, byte < 0x80)
    : IsText bytes := by
  induction bytes with
  | nil => exact isText_nil
  | cons byte bytes ih =>
      obtain ⟨first, rest⟩ := List.forall_mem_cons.mp ascii
      have char := isText_utf8EncodeChar (charOf byte.toNat)
      rw [utf8EncodeChar_one first] at char
      exact char.append (ih rest)

/-- A character begins with a byte that continues none and goes on with bytes that continue one. -/
theorem utf8EncodeChar_eq_cons (c : Char)
    : ∃ lead tail,
        String.utf8EncodeChar c = lead :: tail
        ∧ isContinuation lead = false
        ∧ ∀ byte ∈ tail, isContinuation byte = true := by
  have scalar : c.val.toNat < 0xD800 ∨ 0xDFFF < c.val.toNat ∧ c.val.toNat < 0x110000 := c.valid
  have own := utf8EncodeChar_charOf (show c.val.toNat.isValidChar from scalar)
  rw [charOf, show Char.ofNat c.val.toNat = c from Char.ofNat_toNat c] at own
  rw [own]
  split_ifs
  all_goals
    refine ⟨_, _, rfl, ?_, by simp [isContinuation_tailByte]⟩
    rw [← Bool.not_eq_true]
    simp only [isContinuation, Bool.and_eq_true, decide_eq_true_eq, UInt8.le_iff_toNat_le,
      UInt8.reduceToNat]
    rw [toNat_ofNat (by omega)]
    omega

/-- The bytes of a character are no beginning of those of another one. -/
theorem utf8EncodeChar_append_inj {c d : Char} {rest other : List UInt8}
    (same : String.utf8EncodeChar c ++ rest = String.utf8EncodeChar d ++ other)
    : c = d ∧ rest = other := by
  have read := congrArg parts same
  rw [parts_utf8EncodeChar, parts_utf8EncodeChar] at read
  obtain rfl := Option.some.inj (List.cons.inj read).1
  exact ⟨rfl, List.append_cancel_left same⟩

/-- Where the bytes of a character stand among the bytes of characters, what is in front of them and
what is behind them are bytes of characters, by induction on the characters.
-/
theorem isText_around {chars : List Char} {front back : List UInt8} {c : Char}
    (whole : encodeChars chars = front ++ (String.utf8EncodeChar c ++ back))
    : IsText front ∧ IsText back := by
  induction chars generalizing front with
  | nil =>
      have empty := (List.append_eq_nil_iff.mp whole.symm).2
      exact absurd (List.append_eq_nil_iff.mp empty).1 String.utf8EncodeChar_ne_nil
  | cons d chars ih =>
      rw [encodeChars_cons] at whole
      rcases List.append_eq_append_iff.mp whole with
        ⟨between, behind, rest⟩ | ⟨between, char, rest⟩
      · obtain ⟨before, after⟩ := ih rest
        exact ⟨behind ▸ (isText_utf8EncodeChar d).append before, after⟩
      · obtain ⟨lead, tail, own, begins, _⟩ := utf8EncodeChar_eq_cons c
        obtain ⟨dLead, dTail, dOwn, _, continues⟩ := utf8EncodeChar_eq_cons d
        cases front with
        | nil =>
            obtain ⟨_, rfl⟩ := utf8EncodeChar_append_inj whole
            exact ⟨isText_nil, isText_iff.mpr ⟨chars, rfl⟩⟩
        | cons byte front =>
            cases between with
            | nil =>
                obtain ⟨_, after⟩ :=
                  ih (show encodeChars chars = [] ++ (String.utf8EncodeChar c ++ back) from rest.symm)
                rw [List.append_nil] at char
                exact ⟨char ▸ isText_utf8EncodeChar d, after⟩
            | cons next between =>
                rw [own] at rest
                obtain rfl : lead = next := (List.cons.inj rest).1
                rw [dOwn] at char
                obtain rfl := (List.cons.inj char).2
                have inner := continues lead (by simp)
                rw [begins] at inner
                cases inner

/-- Where the bytes of a character stand in the bytes of a text, the text can be cut in front of
them and behind them.
-/
theorem IsText.cut {front back : List UInt8} {c : Char}
    (whole : IsText (front ++ (String.utf8EncodeChar c ++ back)))
    : IsText front ∧ IsText back := by
  obtain ⟨chars, own⟩ := isText_iff.mp whole
  exact isText_around own

end LogIntake.Text.Utf8
