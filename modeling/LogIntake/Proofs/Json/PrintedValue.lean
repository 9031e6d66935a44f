import LogIntake.Json.Decode
import LogIntake.Proofs.Decimal.Digits
import LogIntake.Proofs.Json.PrintedRows
import LogIntake.Proofs.NameMap.Lookup

/-! Values as they are printed, read back. Whole numbers, texts and the words are read as they are;
lists keep their order, and the members of an object come out in ascending order of their names.
-/

namespace LogIntake.Json

open Text.Utf8

-----------------------------------------------------------------------------------------
-- Whole numbers
-----------------------------------------------------------------------------------------

theorem isDigit_byteOf {c : Char} (digit : c.isDigit = true)
    : String.utf8EncodeChar c = [byteOf c]
      ∧ isDigit (byteOf c) = true
      ∧ (byteOf c).toNat = c.toNat := by
  obtain ⟨low, high⟩ := Char.isDigit_iff_toNat.mp digit
  have least : 48 ≤ c.toNat := low
  have most : c.toNat ≤ 57 := high
  have number : (byteOf c).toNat = c.toNat := toNat_ofNat (by omega)
  refine ⟨utf8EncodeChar_of_ascii (by omega), ?_, number⟩
  simp only [isDigit, Bool.and_eq_true, decide_eq_true_eq, UInt8.le_iff_toNat_le, number]
  exact ⟨low, high⟩

theorem le_ofDigitChars (digits : List Char) (value : Nat)
    : value ≤ Nat.ofDigitChars 10 digits value := by
  induction digits generalizing value with
  | nil => exact Nat.le_refl value
  | cons c digits ih =>
      rw [Nat.ofDigitChars_cons]
      exact Nat.le_trans (by omega) (ih _)

/-- Digits whose number fits a word are read as that number, by induction on them. -/
theorem readWholeDigits_eq {digits : List Char} (all : ∀ c ∈ digits, c.isDigit = true)
    {rest : List UInt8} (ends : EndsValue rest) {value : Nat}
    (fits : Nat.ofDigitChars 10 digits value ≤ maxWord)
    : readWholeDigits value (encodeChars digits ++ rest)
      = (Nat.ofDigitChars 10 digits value, 0, rest) := by
  induction digits generalizing value with
  | nil =>
      cases rest with
      | nil => rfl
      | cons byte rest =>
          have noDigit := (ends byte rfl).1
          rw [encodeChars_nil, List.nil_append, readWholeDigits, noDigit]
          rfl
  | cons c digits ih =>
      obtain ⟨digit, others⟩ := List.forall_mem_cons.mp all
      obtain ⟨single, isDigit, number⟩ := isDigit_byteOf digit
      rw [Nat.ofDigitChars_cons] at fits ⊢
      have next : value * 10 + digitValue (byteOf c) = 10 * value + (c.toNat - '0'.toNat) := by
        rw [digitValue, number, Nat.mul_comm]
        rfl
      have small := Nat.le_trans (le_ofDigitChars digits _) fits
      rw [encodeChars_cons, single, List.singleton_append, List.cons_append, readWholeDigits,
        isDigit]
      dsimp only
      rw [if_pos rfl, next, if_neg (Nat.not_lt.mpr small)]
      exact ih others fits

/-- Behind the digits of a number that is printed nothing carries it on. -/
theorem readAfterWhole_eq {rest : List UInt8} (ends : EndsValue rest) (negative : Bool)
    (digits : Nat)
    : readAfterWhole negative digits 0 rest = .ok (wholeNumber negative digits, rest) := by
  cases rest with
  | nil => rfl
  | cons byte rest =>
      obtain ⟨_, noPoint, noExponent⟩ := ends byte rfl
      have stays : atExponent (byte :: rest) = false := noExponent
      simp [readAfterWhole, noPoint, stays]

/-- The digits of a number start with a digit, and only those of zero with a zero. -/
theorem exists_encodeChars_digits (n : Nat)
    : ∃ byte more,
        encodeChars (Nat.toDigits 10 n) = byte :: more
        ∧ isDigit byte = true
        ∧ (byte = byteOf '0' → n = 0) := by
  obtain ⟨c, more, digits⟩ := List.exists_cons_of_ne_nil (Decimal.digits_ne_nil n)
  obtain ⟨single, isDigit, number⟩ :=
    isDigit_byteOf (Decimal.isDigit_of_mem_digits (digits ▸ List.mem_cons_self))
  refine ⟨byteOf c, encodeChars more, ?_, isDigit, fun zero => ?_⟩
  · rw [digits, encodeChars_cons, single, List.singleton_append]
  · have zeroDigit : c = '0' := Char.toNat_inj.mp (number.symm.trans (congrArg UInt8.toNat zero))
    exact Decimal.eq_zero_of_head?_digits (by rw [digits, zeroDigit]; rfl)

/-- A number that fits a word is read back from its digits. Witness: only zero starts with a zero,
so the reader never meets one in front of other digits.
-/
theorem readUnsigned_digits {n : Nat} (fits : n ≤ maxWord) (negative : Bool) {rest : List UInt8}
    (ends : EndsValue rest)
    : readUnsigned negative (encodeChars (Nat.toDigits 10 n) ++ rest)
      = .ok (wholeNumber negative n, rest) := by
  by_cases zero : n = 0
  · subst zero
    have after := readAfterWhole_eq ends negative 0
    cases rest with
    | nil => exact after
    | cons byte rest =>
        have noDigit := (ends byte rfl).1
        change (if isDigit byte then _ else readAfterWhole negative 0 0 (byte :: rest)) = _
        rw [noDigit]
        exact after
  · have whole : Nat.ofDigitChars 10 (Nat.toDigits 10 n) 0 = n := Nat.ofDigitChars_ten_toDigits
    have read := readWholeDigits_eq (fun _ => Decimal.isDigit_of_mem_digits) ends
      (whole.trans_le fits)
    obtain ⟨byte, more, digits, isDigit, onlyZero⟩ := exists_encodeChars_digits n
    rw [whole, digits, List.cons_append] at read
    rw [digits, List.cons_append]
    unfold readUnsigned
    dsimp only
    rw [if_neg (mt onlyZero zero), if_pos isDigit, read]
    exact readAfterWhole_eq ends negative n

theorem wholeNumber_negative {n : Nat} (positive : 0 < n) (fits : n ≤ Nat.pow 2 63)
    : wholeNumber true n = .negative n := by
  have inBounds : ¬(decide (n = 0) || decide (Nat.pow 2 63 < n)) = true := by
    simp only [Bool.or_eq_true, decide_eq_true_eq, not_or]
    exact ⟨positive.ne', fits.not_gt⟩
  simp only [wholeNumber, Bool.not_true, Bool.false_eq_true, if_false, if_neg inBounds]

-----------------------------------------------------------------------------------------
-- Scalars
-----------------------------------------------------------------------------------------

/-- A value that is neither a list nor an object is read as such, since none of them starts with a
blank or a bracket.
-/
theorem readValue_of_readScalar {bytes rest : List UInt8} {value : Json}
    (done : readScalar bytes = .ok (value, rest)) (depth : Nat)
    : readValue (depth + 1) bytes = .ok (value, rest) := by
  cases bytes with
  | nil => cases done
  | cons byte inner =>
      have starts {other : UInt8}
          (fails : ∀ inner, readScalar (other :: inner) = .error .expectedValue)
          : byte ≠ other := by
        rintro rfl
        cases (fails inner).symm.trans done
      have notBlank : isBlank byte = false := by
        simp only [isBlank, Bool.or_eq_false_iff, decide_eq_false_iff_not]
        exact
          ⟨⟨⟨starts fun _ => rfl, starts fun _ => rfl⟩, starts fun _ => rfl⟩, starts fun _ => rfl⟩
      have notList : byte ≠ byteOf '[' := starts fun _ => rfl
      have notObject : byte ≠ byteOf '\x7b' := starts fun _ => rfl
      unfold readValue
      rw [skipBlanks_cons notBlank]
      dsimp only
      rw [if_neg notList, if_neg notObject]
      exact formal_eq_ok_iff.mpr done

theorem readValue_passesBlanks (depth : Nat) : PassesBlanks (readValue depth) := by
  intro bytes
  cases depth with
  | zero => rfl
  | succ depth =>
      unfold readValue
      rw [skipBlanks_skipBlanks]

theorem readValue_passesNoBracket (depth : Nat) : PassesNoBracket (readValue depth) := by
  intro bytes value rest done
  cases depth with
  | zero => cases done
  | succ depth =>
      unfold readValue at done
      split at done
      case h_1 => cases done
      case h_2 byte behind skipped =>
        refine ⟨byte, behind, skipped, ?_⟩
        rintro rfl
        cases done

/-- Numbers that are printed and read without a fraction, within the bounds of words. -/
def Number.isWhole : Number → Bool
  | .natural n => n ≤ maxWord
  | .negative n => 0 < n && n ≤ Nat.pow 2 63
  | .fraction _ => false

theorem readScalar_text (text : String) (rest : List UInt8)
    : readScalar (encodeChars (quoteText text) ++ rest) = .ok (.str text, rest) := by
  rw [encodeChars_quoteText, List.cons_append, List.append_assoc, List.singleton_append]
  change (readString _).map _ = _
  rw [readString_escaped]
  rfl

/-- A digit starts a number. -/
theorem readScalar_of_isDigit {byte : UInt8} (digit : isDigit byte = true) (rest : List UInt8)
    : readScalar (byte :: rest)
      = (readUnsigned false (byte :: rest)).map fun read => (.num read.1, read.2) := by
  have other {mark : UInt8} (noDigit : isDigit mark = false) : byte ≠ mark := by
    rintro rfl
    cases noDigit.symm.trans digit
  unfold readScalar
  dsimp only
  rw [if_neg (other rfl), if_neg (other rfl), if_neg (other rfl), if_neg (other rfl),
    if_neg (other rfl), if_pos digit]

/-- A whole number is read back, where nothing carries it on. -/
theorem readScalar_number {n : Number} (whole : n.isWhole = true) {rest : List UInt8}
    (ends : EndsValue rest)
    : readScalar (encodeChars n.text.toList ++ rest) = .ok (.num n, rest) := by
  cases n with
  | natural n =>
      have fits : n ≤ maxWord := of_decide_eq_true whole
      have text : (Number.natural n).text.toList = Nat.toDigits 10 n := Nat.toList_repr
      have read := readUnsigned_digits fits false ends
      obtain ⟨byte, more, digits, isDigit, _⟩ := exists_encodeChars_digits n
      rw [text]
      rw [digits, List.cons_append] at read ⊢
      rw [readScalar_of_isDigit isDigit, read]
      rfl
  | negative n =>
      have bounds : 0 < n ∧ n ≤ Nat.pow 2 63 := by
        simpa only [Number.isWhole, Bool.and_eq_true, decide_eq_true_eq] using whole
      obtain ⟨positive, fits⟩ := bounds
      have text : (Number.negative n).text.toList = '-' :: Nat.toDigits 10 n := by
        change ("-" ++ n.repr).toList = _
        rw [String.toList_append, Nat.toList_repr]
        rfl
      have read := readUnsigned_digits (Nat.le_trans fits (by decide)) true ends
      rw [text, encodeChars_cons, List.append_assoc]
      change (readUnsigned true (encodeChars (Nat.toDigits 10 n) ++ rest)).map _ = _
      rw [read, wholeNumber_negative positive fits]
      rfl
  | fraction x => cases whole

-----------------------------------------------------------------------------------------
-- Lists and objects
-----------------------------------------------------------------------------------------

/-- A member as it is printed on one line, from its colon on. -/
def compactMember (member : String × Json) : String × List Char :=
  (member.1, ':' :: compactChars member.2)

/-- A member as it is printed on a line of its own, from its colon on. -/
def prettyMember (level : Nat) (member : String × Json) : String × List Char :=
  (member.1, ':' :: ' ' :: prettyChars level member.2)

theorem compactMembers_eq (members : List (String × Json))
    : compactMembers members = row true [] ((members.map compactMember).map memberChars) := by
  rw [List.map_map]
  refine eq_row compactMembers _ [] rfl (fun member => ?_) (fun member next rest => ?_) members
  all_goals simp [compactMembers, memberChars, compactMember, quoteText]

/-- An object on one line is a brace with a row of members behind it. -/
theorem exists_inner_compactChars_obj {σ : Type} {step : σ → String → Reader σ} {init final : σ}
    {members : List (String × Json)}
    (spelt : MemberRow step init (members.map compactMember) final) (rest : List UInt8)
    (ends : EndsValue rest)
    : ∃ inner,
        encodeChars (compactChars (.obj members)) ++ rest = byteOf '\x7b' :: inner
        ∧ readMembers init step inner = .ok (final, rest) := by
  have blank : Blank [] := nofun
  refine ⟨_, ?_, readMembers_row spelt blank blank rest ends⟩
  rw [← compactMembers_eq]
  rfl

theorem prettyItems_eq (level : Nat) (items : List Json)
    : prettyItems level items = row true (lineBreak level) (items.map (prettyChars level)) :=
  eq_row (prettyItems level) _ _ rfl (fun _ => rfl) (fun _ _ _ => rfl) items

theorem prettyMembers_eq (level : Nat) (members : List (String × Json))
    : prettyMembers level members
      = row true (lineBreak level) ((members.map (prettyMember level)).map memberChars) := by
  rw [List.map_map]
  refine eq_row (prettyMembers level) _ _ rfl (fun member => ?_) (fun member next rest => ?_) _
  all_goals simp [prettyMembers, memberChars, prettyMember, quoteText]

theorem blank_lineBreak (level : Nat) : Blank (lineBreak level) := by
  intro c member
  rcases List.mem_cons.mp member with rfl | blank
  · exact .inr rfl
  · exact .inl (List.eq_of_mem_replicate blank)

/-- A list is printed with its bracket behind blanks, if with any. -/
theorem exists_prettyChars_arr (level : Nat) (items : List Json)
    : ∃ closing,
        Blank closing
        ∧ prettyChars level (.arr items)
          = '[' :: (row true (lineBreak (level + 1)) (items.map (prettyChars (level + 1)))
              ++ (closing ++ [']'])) := by
  cases items with
  | nil => exact ⟨[], nofun, rfl⟩
  | cons item items =>
      refine ⟨lineBreak level, blank_lineBreak level, ?_⟩
      rw [← prettyItems_eq, ← List.append_assoc]
      rfl

/-- An object is printed with its brace behind blanks, if with any. -/
theorem exists_prettyChars_obj (level : Nat) (members : List (String × Json))
    : ∃ closing,
        Blank closing
        ∧ prettyChars level (.obj members)
          = '\x7b' :: (row true (lineBreak (level + 1))
                ((members.map (prettyMember (level + 1))).map memberChars)
              ++ (closing ++ ['\x7d'])) := by
  cases members with
  | nil => exact ⟨[], nofun, rfl⟩
  | cons member members =>
      refine ⟨lineBreak level, blank_lineBreak level, ?_⟩
      rw [← prettyMembers_eq, ← List.append_assoc]
      rfl

-----------------------------------------------------------------------------------------
-- Whole values
-----------------------------------------------------------------------------------------

mutual

/-- The value as reading puts it together: the members of every object in ascending order of their
names, the last of several equal names counting.
-/
def arranged : Json → Json
  | .null => .null
  | .bool b => .bool b
  | .num n => .num n
  | .str text => .str text
  | .arr items => .arr (arrangedItems items)
  | .obj members => .obj (arrangedMembers [] members)

def arrangedItems : List Json → List Json
  | [] => []
  | item :: rest => arranged item :: arrangedItems rest

/-- Members put among those before them, from left to right. -/
def arrangedMembers (before : List (String × Json)) : List (String × Json) → List (String × Json)
  | [] => before
  | (name, value) :: rest => arrangedMembers (insertEntry name (arranged value) before) rest

end

theorem arrangedItems_eq (items : List Json) : arrangedItems items = items.map arranged := by
  induction items with
  | nil => rfl
  | cons item items ih => rw [arrangedItems, ih, List.map_cons]

-- Where a name stands twice among the members, what reading keeps is the last one.
theorem lookup_arrangedMembers (name : String) (members before : List (String × Json))
    : (arrangedMembers before members).lookup name
      = ((members.reverse.lookup name).map arranged).or (before.lookup name) := by
  induction members generalizing before with
  | nil => rfl
  | cons member members ih =>
      rw [arrangedMembers, ih, lookup_insertEntry, List.reverse_cons, List.lookup_append,
        lookup_cons_entry]
      cases members.reverse.lookup name <;> by_cases same : name = member.1 <;> simp [same]

/-- A member of an arranged object is the last one of its name, arranged. -/
theorem member?_arranged (members : List (String × Json)) (name : String)
    : (arranged (.obj members)).member? name = (members.reverse.lookup name).map arranged := by
  rw [arranged, member?, lookup_arrangedMembers, List.lookup_nil, Option.or_none]

theorem arrangedMembers_ascending (members : List (String × Json)) {before : List (String × Json)}
    (ascending : before.Pairwise fun left right => left.1 < right.1)
    : (arrangedMembers before members).Pairwise fun left right => left.1 < right.1 := by
  induction members generalizing before with
  | nil => exact ascending
  | cons member members ih => exact ih (insertEntry_ascending ascending)

/-- A value whose objects are in order already is arranged as it is. -/
theorem Ordered.arranged_eq {value : Json} (ordered : Ordered value) : value.arranged = value := by
  induction ordered with
  | null => rfl
  | bool b => rfl
  | num n => rfl
  | str text => rfl
  | @arr items _ ih =>
      rw [arranged, arrangedItems_eq, List.map_congr_left ih, List.map_id']
  | @obj members ascending _ ih =>
      refine congrArg Json.obj ?_
      refine eq_of_lookup_eq (arrangedMembers_ascending members .nil) ascending fun name => ?_
      rw [lookup_arrangedMembers, lookup_reverse_of_ascending ascending, List.lookup_nil,
        Option.or_none]
      cases found : members.lookup name with
      | none => rfl
      | some value =>
          exact congrArg some (ih (name, value) ((mem_iff_lookup_of_ascending ascending).mpr found))

/-- Values whose numbers are whole, with so many brackets open at once at most. -/
inductive Readable : Nat → Json → Prop
  | null (depth : Nat) : Readable depth .null
  | bool (depth : Nat) (b : Bool) : Readable depth (.bool b)
  | num {depth n} (whole : n.isWhole = true) : Readable depth (.num n)
  | str (depth : Nat) (text : String) : Readable depth (.str text)
  | arr {depth items} (each : ∀ item ∈ items, Readable depth item)
    : Readable (depth + 1) (.arr items)
  | obj {depth members} (each : ∀ member ∈ members, Readable depth member.2)
    : Readable (depth + 1) (.obj members)

variable {depth : Nat}

/-- A list of printed values is read as a list. -/
theorem spells_arr {items : List Json} {text : Json → List Char} {lead closing : List Char}
    (spelt : ∀ item ∈ items, Spells (readValue (depth + 1)) (text item) item.arranged)
    (blankLead : Blank lead) (blankClosing : Blank closing)
    : Spells (readValue (depth + 2)) ('[' :: (row true lead (items.map text) ++ (closing ++ [']'])))
        (arranged (.arr items)) := by
  intro rest ends
  have elements := readElements_row (readValue_passesBlanks (depth + 1))
    (readValue_passesNoBracket (depth + 1)) spelt blankLead blankClosing rest ends
  refine bind_eq_ok_iff.mpr ⟨_, elements, ?_⟩
  dsimp only
  rw [List.reverse_reverse, arranged, arrangedItems_eq]
  rfl

/-- Reads the value of a member and puts it among the members before it. -/
def putMember (depth : Nat) (members : List (String × Json)) (name : String)
    : Reader (List (String × Json)) := fun bytes => do
  let (value, bytes) ← memberValue (readValue depth) bytes
  return (insertEntry name value members, bytes)

/-- Printed members are put among those before them, by induction on them. -/
theorem memberRow_arranged {members : List (String × Json)} {text : Json → List Char}
    (spelt
      : ∀ member ∈ members,
          Spells (memberValue (readValue depth)) (text member.2) member.2.arranged)
    (before : List (String × Json))
    : MemberRow (putMember depth) before (members.map fun member => (member.1, text member.2))
        (arrangedMembers before members) := by
  induction members generalizing before with
  | nil => exact .nil before
  | cons member members ih =>
      obtain ⟨first, others⟩ := List.forall_mem_cons.mp spelt
      have put
          : Spells (putMember depth before member.1) (text member.2)
              (insertEntry member.1 member.2.arranged before) :=
        fun rest ends => bind_eq_ok_iff.mpr ⟨_, first rest ends, rfl⟩
      exact .cons put (ih others _)

/-- An object of printed members is read as an object. -/
theorem spells_obj {members : List (String × Json)} (text : Json → List Char)
    {lead closing : List Char}
    (spelt
      : ∀ member ∈ members,
          Spells (memberValue (readValue (depth + 1))) (text member.2) member.2.arranged)
    (blankLead : Blank lead) (blankClosing : Blank closing)
    : Spells (readValue (depth + 2))
        ('\x7b' :: (row true lead
              ((members.map fun member => (member.1, text member.2)).map memberChars)
            ++ (closing ++ ['\x7d'])))
        (arranged (.obj members)) := by
  intro rest ends
  have all := readMembers_row (memberRow_arranged spelt []) blankLead blankClosing rest ends
  exact bind_eq_ok_iff.mpr ⟨_, all, rfl⟩

/-- A printed value is read back, its objects arranged, by induction on the brackets. -/
theorem Readable.spells {value : Json} (readable : Readable depth value) (level : Nat)
    : Spells (readValue (depth + 1)) (prettyChars level value) value.arranged := by
  induction readable generalizing level with
  | null depth => exact fun rest _ => readValue_of_readScalar rfl depth
  | bool depth b => cases b <;> exact fun rest _ => readValue_of_readScalar rfl depth
  | num whole => exact fun rest ends => readValue_of_readScalar (readScalar_number whole ends) _
  | str depth text => exact fun rest _ => readValue_of_readScalar (readScalar_text text rest) depth
  | @arr depth items _ ih =>
      obtain ⟨closing, blank, text⟩ := exists_prettyChars_arr level items
      rw [text]
      exact spells_arr (fun item member => ih item member _) (blank_lineBreak _) blank
  | @obj depth members _ ih =>
      obtain ⟨closing, blank, text⟩ := exists_prettyChars_obj level members
      rw [text]
      refine spells_obj (fun value => ':' :: ' ' :: prettyChars (level + 1) value) ?_
        (blank_lineBreak _) blank
      intro member among
      exact ((ih member among _).afterBlank (readValue_passesBlanks _)).afterColon

/-- A printed value is a document of the same value with its objects arranged. -/
theorem parse_pretty {value : Json} (readable : Readable 127 value)
    : parse (encode value.pretty) = .ok value.arranged := by
  have brackets : maxDepth = 127 + 1 := rfl
  rw [pretty, encode_ofList, parse, brackets]
  exact (readable.spells 0).document

/-- An object is printed from brace to brace, with no blanks around it. -/
theorem exists_encode_pretty_obj (members : List (String × Json))
    : ∃ inner, encode (pretty (.obj members)) = byteOf '\x7b' :: (inner ++ [byteOf '\x7d']) := by
  obtain ⟨closing, _, text⟩ := exists_prettyChars_obj 0 members
  rw [pretty, encode_ofList, text, ← List.append_assoc, encodeChars_cons, encodeChars_append]
  exact ⟨_, rfl⟩

end LogIntake.Json
