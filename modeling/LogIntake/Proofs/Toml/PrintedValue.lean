import LogIntake.Toml.Parser
import LogIntake.Proofs.Decimal.Digits
import LogIntake.Proofs.Toml.PrintedText

/-! Values on the right of an equals sign, read as they are printed: texts, flags and integers, and
lists of them. A value ends before a line break, a comma or a closing bracket, which is all that
follows values in a printed document.
-/

namespace LogIntake.Toml

/-- A value that is printed as one word or one text, and that is in range if it is an integer. -/
inductive IsAtom : Toml → Prop
  | text (value : String) : IsAtom (.text value)
  | boolean (b : Bool) : IsAtom (.boolean b)
  | integer {n : Int} (inRange : isInRange n = true) : IsAtom (.integer n)

/-- What stands behind a printed value. -/
def EndsValue (rest : List Char) : Prop :=
  ∀ c ∈ rest.head?, c = '\n' ∨ c = ',' ∨ c = ']'

theorem EndsValue.of_cons {c : Char} (ending : c = '\n' ∨ c = ',' ∨ c = ']') (rest : List Char)
    : EndsValue (c :: rest) := by
  rintro _ ⟨⟩
  exact ending

theorem EndsValue.noQuote {rest : List Char} (ends : EndsValue rest)
    : rest.head? ≠ some '"' ∧ rest.head? ≠ some '\'' := by
  constructor <;>
    · intro quote
      rcases ends _ quote with same | same | same <;> cases same

-----------------------------------------------------------------------------------------
-- Values without quotes
-----------------------------------------------------------------------------------------

theorem splitGroups_of_noUnderscore {digits : List Char} (plain : '_' ∉ digits)
    : splitGroups digits = [digits] := by
  induction digits with
  | nil => rfl
  | cons c digits ih =>
      obtain ⟨different, rest⟩ := List.ne_and_not_mem_of_not_mem_cons plain
      rw [splitGroups, ih rest]
      exact if_neg different.symm

/-- The digits of a number are its decimal notation. -/
theorem decimalDigits?_digits (n : Nat)
    : decimalDigits? (Nat.toDigits 10 n) = some (Nat.toDigits 10 n) := by
  have noUnderscore : '_' ∉ Nat.toDigits 10 n :=
    fun member => absurd (Decimal.isDigit_of_mem_digits member) (by decide)
  have read : digits? Char.isDigit (Nat.toDigits 10 n) = some (Nat.toDigits 10 n) := by
    unfold digits?
    rw [splitGroups_of_noUnderscore noUnderscore]
    have all : (Nat.toDigits 10 n).all Char.isDigit = true :=
      List.all_eq_true.mpr fun _ => Decimal.isDigit_of_mem_digits
    simp [all]
  unfold decimalDigits?
  rw [read]
  split
  next same => exact absurd (Option.some.inj same) (Decimal.digits_ne_zero_cons_cons n _ _)
  next => rfl

theorem hexDigit?_of_isDigit {c : Char} (digit : c.isDigit = true)
    : hexDigit? c = some (c.toNat - 48) := by
  have range : '0' ≤ c ∧ c ≤ '9' := by
    simpa [Char.isDigit, Char.le_def] using digit
  exact if_pos range

theorem valueOf_digits (n : Nat) : valueOf 10 (Nat.toDigits 10 n) = n := by
  refine Decimal.foldl_digits (fun value c digit => ?_) n
  rw [hexDigit?_of_isDigit digit]
  rfl

theorem integer?_digits (n : Nat) : integer? (Nat.toDigits 10 n) = some (n : Int) := by
  have noSign : takeSign (Nat.toDigits 10 n) = (false, Nat.toDigits 10 n) := by
    unfold takeSign
    split
    next rest same =>
      have member : '-' ∈ Nat.toDigits 10 n := by simp [same]
      exact absurd (Decimal.isDigit_of_mem_digits member) (by decide)
    next rest same =>
      have member : '+' ∈ Nat.toDigits 10 n := by simp [same]
      exact absurd (Decimal.isDigit_of_mem_digits member) (by decide)
    next => rfl
  unfold integer?
  split
  next same => exact absurd same (Decimal.digits_ne_zero_cons_cons n _ _)
  next same => exact absurd same (Decimal.digits_ne_zero_cons_cons n _ _)
  next same => exact absurd same (Decimal.digits_ne_zero_cons_cons n _ _)
  next => simp [noSign, decimalDigits?_digits, valueOf_digits]

theorem integer?_minus_digits (n : Nat)
    : integer? ('-' :: Nat.toDigits 10 n) = some (-(n : Int)) := by
  simp [integer?, takeSign, decimalDigits?_digits, valueOf_digits]

/-- The characters of a printed integer: digits, behind a minus sign if it is negative. -/
theorem toList_toString_int (n : Int)
    : (toString n).toList
      = if 0 ≤ n then Nat.toDigits 10 n.toNat else '-' :: Nat.toDigits 10 n.natAbs := by
  cases n with
  | ofNat n =>
      have natural : (0 : Int) ≤ Int.ofNat n := Int.natCast_nonneg n
      rw [if_pos natural]
      exact Nat.toList_repr
  | negSucc n =>
      have negative : ¬(0 : Int) ≤ Int.negSucc n := by omega
      rw [if_neg negative]
      change ("-" ++ Nat.repr (n + 1)).toList = _
      rw [String.toList_append, Nat.toList_repr]
      rfl

theorem scalar_toString {n : Int} (inRange : isInRange n = true)
    : scalar (toString n).toList = .ok (.integer n) := by
  have read : integer? (toString n).toList = some n := by
    rw [toList_toString_int]
    split
    next natural => rw [integer?_digits, Int.toNat_of_nonneg natural]
    next negative => rw [integer?_minus_digits]; congr; omega
  have notTrue : (toString n).toList ≠ "true".toList := by
    intro same
    rw [same] at read
    cases read
  have notFalse : (toString n).toList ≠ "false".toList := by
    intro same
    rw [same] at read
    cases read
  unfold scalar
  rw [if_neg notTrue, if_neg notFalse, read]
  exact if_pos inRange

/-- A word is taken up to what ends a value. -/
theorem takeScalar_word {word : List Char} (plain : ∀ c ∈ word, isScalarChar c = true)
    {rest : List Char} (ends : EndsValue rest) {value : Toml} (denotes : scalar word = .ok value)
    : takeScalar (word ++ rest) = .ok (value, rest) := by
  have stop : rest.takeWhile isScalarChar = [] := by
    cases rest with
    | nil => rfl
    | cons c rest => rcases ends c rfl with rfl | rfl | rfl <;> rfl
  have taken : (word ++ rest).takeWhile isScalarChar = word := by
    rw [List.takeWhile_append_of_pos plain, stop, List.append_nil]
  unfold takeScalar
  simp only [taken, List.drop_left]
  split
  next => rcases ends ' ' rfl with same | same | same <;> cases same
  next => rw [denotes]; rfl

-----------------------------------------------------------------------------------------
-- Texts, words and lists
-----------------------------------------------------------------------------------------

/-- A character that neither layout nor the mark at the front of a document passes over. -/
def IsStart (c : Char) : Prop :=
  c ≠ ' ' ∧ c ≠ '\t' ∧ c ≠ '\n' ∧ c ≠ '\r' ∧ c ≠ '#' ∧ c ≠ '\uFEFF'

theorem dropWhite_of_isStart {c : Char} (start : IsStart c) (rest : List Char)
    : dropWhite (c :: rest) = c :: rest := by
  obtain ⟨noBlank, noTab, noBreak, noReturn, _⟩ := start
  unfold dropWhite
  split
  next same => cases same
  next same => exact absurd (List.cons.inj same).1 noReturn
  next same =>
    obtain ⟨rfl, rfl⟩ := List.cons.inj same
    simp [isSpace, noBlank, noTab, noBreak]

/-- Layout ends where something starts. -/
theorem dropLayout_of_dropWhite {c : Char} (start : IsStart c) (source : List Char)
    {rest : List Char} (white : dropWhite source = c :: rest)
    : dropLayout source.length source = .ok (c :: rest) := by
  cases source with
  | nil => cases white
  | cons first source =>
      rw [List.length_cons, dropLayout, white]
      split
      next same => exact absurd (List.cons.inj same).1 start.2.2.2.2.1
      next => rfl

theorem dropLayout_of_isStart {c : Char} (start : IsStart c) (rest : List Char)
    : dropLayout (c :: rest).length (c :: rest) = .ok (c :: rest) :=
  dropLayout_of_dropWhite start _ (dropWhite_of_isStart start rest)

/-- A flag and an integer are printed as words that denote them. -/
theorem IsAtom.eq_text_or_word {value : Toml} (atom : IsAtom value)
    : (∃ text, value = .text text)
      ∨ ∃ word,
          (printValue value).toList = word
          ∧ word ≠ []
          ∧ (∀ c ∈ word, isScalarChar c = true)
          ∧ scalar word = .ok value := by
  cases atom with
  | text value => exact .inl ⟨value, rfl⟩
  | boolean b =>
      refine .inr ⟨_, rfl, ?_⟩
      rw [printValue]
      cases b <;> exact ⟨nofun, List.all_eq_true.mp rfl, rfl⟩
  | @integer n inRange =>
      have digitsPlain {m : Nat} : ∀ c ∈ Nat.toDigits 10 m, isScalarChar c = true := by
        intro c member
        have digit := Decimal.isDigit_of_mem_digits member
        simp [isScalarChar, Char.isAlphanum, digit]
      refine .inr ⟨_, rfl, ?_, ?_, ?_⟩
      · rw [printValue, toList_toString_int]
        split <;> simp
      · rw [printValue, toList_toString_int]
        split
        · exact digitsPlain
        · exact List.forall_mem_cons.mpr ⟨rfl, digitsPlain⟩
      · rw [printValue]
        exact scalar_toString inRange

theorem IsStart.of_isScalarChar {c : Char} (plain : isScalarChar c = true) : IsStart c := by
  have other {d : Char} (noScalar : isScalarChar d = false) : c ≠ d := by
    rintro rfl
    rw [noScalar] at plain
    cases plain
  exact ⟨other rfl, other rfl, other rfl, other rfl, other rfl, other rfl⟩

/-- A printed atom starts with a character that neither layout nor lists and tables have. -/
theorem IsAtom.exists_head {value : Toml} (atom : IsAtom value)
    : ∃ c more,
        (printValue value).toList = c :: more
        ∧ IsStart c
        ∧ c ≠ ']'
        ∧ c ≠ '['
        ∧ c ≠ '\x7b' := by
  rcases atom.eq_text_or_word with ⟨text, rfl⟩ | ⟨word, printed, nonempty, plain, _⟩
  · rw [printValue, toList_printText rfl]
    cases Quoting.choose text.toList <;> exact ⟨_, _, rfl, by simp [IsStart], by decide⟩
  · cases word with
    | nil => exact absurd rfl nonempty
    | cons c word =>
        have first := plain c List.mem_cons_self
        refine ⟨c, word, printed, .of_isScalarChar first, ?_, ?_, ?_⟩ <;>
          · rintro rfl
            cases first

/-- What starts like a word is no text in quotes. -/
theorem takeText?_of_isScalarChar {c : Char} (plain : isScalarChar c = true)
    {source rest : List Char} (first : source = c :: rest)
    : takeText? source = none := by
  have noDouble : c ≠ '"' := by
    rintro rfl
    cases plain
  have noSingle : c ≠ '\'' := by
    rintro rfl
    cases plain
  rw [first]
  unfold takeText?
  split
  next same => exact absurd (List.cons.inj same).1 noDouble
  next same => exact absurd (List.cons.inj same).1 noSingle
  next same => exact absurd (List.cons.inj same).1 noDouble
  next same => exact absurd (List.cons.inj same).1 noSingle
  next => rfl

/-- A printed atom is read back, at any depth. -/
theorem takeValue_atom {value : Toml} (atom : IsAtom value) {rest : List Char}
    (ends : EndsValue rest) {fuel : Nat} (enough : 0 < fuel) (depth : Nat)
    : takeValue fuel depth ((printValue value).toList ++ rest) = .ok (value, rest) := by
  obtain ⟨fuel, rfl⟩ : ∃ less, fuel = less + 1 := Nat.exists_eq_succ_of_ne_zero (by omega)
  obtain ⟨c, more, printed, _, _, noList, noTable⟩ := atom.exists_head
  have first : (printValue value).toList ++ rest = c :: (more ++ rest) := by rw [printed]; rfl
  rw [first, takeValue, ← first]
  · rcases atom.eq_text_or_word with ⟨text, rfl⟩ | ⟨word, isWord, nonempty, plain, denotes⟩
    · rw [printValue, takeText?_printText text ends.noQuote]
      rfl
    · have isScalar : isScalarChar c = true := plain c (isWord ▸ printed ▸ List.mem_cons_self)
      rw [takeText?_of_isScalarChar isScalar first, isWord]
      exact takeScalar_word plain ends denotes
  · intro _ same
    exact noList (List.cons.inj same).1
  · intro _ same
    exact noTable (List.cons.inj same).1

/-- One item of a list is read, and what comes next is told by the mark behind it. -/
theorem takeItems_item {item : Toml} (atom : IsAtom item) {source behind : List Char}
    {mark : Char} (ending : mark = ',' ∨ mark = ']')
    (white : dropWhite source = (printValue item).toList ++ mark :: behind) {fuel : Nat}
    (enough : 0 < fuel) (depth : Nat) (before : List Toml)
    : takeItems (fuel + 1) depth before source
      = if mark = ',' then takeItems fuel depth (item :: before) behind
        else .ok ((item :: before).reverse, behind) := by
  obtain ⟨c, more, printed, start, noClosing, _⟩ := atom.exists_head
  have ends : EndsValue (mark :: behind) := .of_cons (.inr ending) behind
  have markStart : IsStart mark := by rcases ending with rfl | rfl <;> simp [IsStart]
  have read := takeValue_atom atom ends enough depth
  rw [printed, List.cons_append] at white read
  rw [takeItems, dropLayout_of_dropWhite start source white]
  dsimp only [bind, Except.bind]
  split
  next same => exact absurd (List.cons.inj same).1 noClosing
  next =>
    rw [read]
    dsimp only
    rw [dropLayout_of_isStart markStart]
    rcases ending with rfl | rfl <;> rfl

/-- An item of a list on a line of its own. -/
def itemLine (item : Toml) : List Char :=
  ' ' :: ' ' :: ' ' :: ' ' :: ((printValue item).toList ++ [',', '\n'])

/-- Items on lines of their own are read up to the closing bracket, by induction on the items. -/
theorem takeItems_lines {items : List Toml} (atoms : ∀ item ∈ items, IsAtom item) {fuel : Nat}
    (enough : items.length < fuel) (depth : Nat) (before : List Toml) (rest : List Char)
    : takeItems fuel depth before ('\n' :: (items.flatMap itemLine ++ ']' :: rest))
      = .ok (before.reverse ++ items, rest) := by
  induction items generalizing fuel before with
  | nil =>
      obtain ⟨fuel, rfl⟩ : ∃ less, fuel = less + 1 := Nat.exists_eq_succ_of_ne_zero (by omega)
      have closing : IsStart ']' := by simp [IsStart]
      have layout := dropLayout_of_dropWhite closing ('\n' :: ']' :: rest)
        (dropWhite_of_isStart closing rest)
      refine bind_eq_ok_iff.mpr ⟨_, layout, ?_⟩
      simp [pure, Except.pure]
  | cons item items ih =>
      obtain ⟨fuel, rfl⟩ : ∃ less, fuel = less + 1 := Nat.exists_eq_succ_of_ne_zero (by omega)
      obtain ⟨atom, others⟩ := List.forall_mem_cons.mp atoms
      obtain ⟨c, more, printed, start, _⟩ := atom.exists_head
      have white
          : dropWhite ('\n' :: ((item :: items).flatMap itemLine ++ ']' :: rest))
            = (printValue item).toList
              ++ ',' :: '\n' :: (items.flatMap itemLine ++ ']' :: rest) := by
        simp only [List.flatMap_cons, itemLine, printed, List.cons_append, List.append_assoc]
        exact dropWhite_of_isStart start _
      have fewer : items.length < fuel := by simpa using enough
      rw [takeItems_item atom (.inl rfl) white (by omega), if_pos rfl, ih others fewer]
      simp

theorem printItems_eq_map (items : List Toml) : printItems items = items.map printValue := by
  induction items with
  | nil => rfl
  | cons item items ih => rw [printItems, ih, List.map_cons]

/-- The characters of a printed list: nothing or one item between brackets, or items on lines. -/
theorem toList_printArray (items : List Toml)
    : (printValue (.array items)).toList
      = match items with
        | [] => ['[', ']']
        | [item] => '[' :: ((printValue item).toList ++ [']'])
        | items => '[' :: '\n' :: (items.flatMap itemLine ++ [']']) := by
  rw [printValue, printItems_eq_map]
  match items with
  | [] => rfl
  | [item] => simp [bracketed]
  | first :: second :: items =>
      have lines : itemLine = fun item =>
          ' ' :: ' ' :: ' ' :: ' ' :: ((printValue item).toList ++ [',', '\n']) := rfl
      simp [bracketed, String.toList_join, List.flatMap_map, lines]

/-- A list has a character at least for each of its items, besides the brackets. -/
theorem length_lt_printArray {items : List Toml} (atoms : ∀ item ∈ items, IsAtom item)
    : items.length + 1 < (printValue (.array items)).toList.length := by
  have perItem (items : List Toml) : items.length ≤ (items.flatMap itemLine).length := by
    induction items with
    | nil => exact le_rfl
    | cons item items ih =>
        simp only [List.flatMap_cons, List.length_append, List.length_cons, itemLine]
        omega
  rw [toList_printArray]
  match items with
  | [] => simp
  | [item] =>
      obtain ⟨c, more, printed, _⟩ := (atoms item List.mem_cons_self).exists_head
      simp [printed]
  | first :: second :: items =>
      have enough := perItem (first :: second :: items)
      simp only [List.length_cons, List.length_append, List.length_nil] at enough ⊢
      omega

/-- A value that stands on the right of an equals sign: an atom or a list of atoms. -/
inductive IsPlain : Toml → Prop
  | atom {value} (atom : IsAtom value) : IsPlain value
  | array {items} (atoms : ∀ item ∈ items, IsAtom item) : IsPlain (.array items)

theorem IsPlain.exists_head {value : Toml} (plain : IsPlain value)
    : ∃ c more, (printValue value).toList = c :: more ∧ IsStart c := by
  cases plain with
  | atom atom =>
      obtain ⟨c, more, printed, start, _⟩ := atom.exists_head
      exact ⟨c, more, printed, start⟩
  | @array items _ =>
      rw [toList_printArray]
      split <;> exact ⟨_, _, rfl, by simp [IsStart]⟩

/-- A printed value is read back in front of what ends it. -/
theorem takeValue_printValue {value : Toml} (plain : IsPlain value) {rest : List Char}
    (ends : EndsValue rest) {fuel : Nat} (enough : (printValue value).toList.length ≤ fuel)
    (depth : Nat)
    : takeValue fuel (depth + 1) ((printValue value).toList ++ rest) = .ok (value, rest) := by
  cases plain with
  | atom atom =>
      obtain ⟨c, more, printed, _⟩ := atom.exists_head
      exact takeValue_atom atom ends (by rw [printed] at enough; simp at enough; omega) _
  | @array items atoms =>
      have longer := length_lt_printArray atoms
      obtain ⟨fuel, rfl⟩ : ∃ less, fuel = less + 1 := Nat.exists_eq_succ_of_ne_zero (by omega)
      have closing : IsStart ']' := by simp [IsStart]
      have read
          : ∃ inner,
              (printValue (.array items)).toList = '[' :: inner
              ∧ takeItems fuel depth [] (inner ++ rest) = .ok (items, rest) := by
        rw [toList_printArray]
        match items with
        | [] =>
            obtain ⟨fuel, rfl⟩ : ∃ less, fuel = less + 1 :=
              Nat.exists_eq_succ_of_ne_zero (by simp at longer; omega)
            have layout := dropLayout_of_isStart closing rest
            exact ⟨_, rfl, bind_eq_ok_iff.mpr ⟨_, layout, rfl⟩⟩
        | [item] =>
            obtain ⟨atom, _⟩ := List.forall_mem_cons.mp atoms
            obtain ⟨c, more, printed, start, _⟩ := atom.exists_head
            obtain ⟨fuel, rfl⟩ : ∃ less, fuel = less + 1 :=
              Nat.exists_eq_succ_of_ne_zero (by simp at longer; omega)
            refine ⟨_, rfl, ?_⟩
            have white : dropWhite ((printValue item).toList ++ [']'] ++ rest)
                = (printValue item).toList ++ ']' :: rest := by
              simp only [printed, List.append_assoc, List.cons_append, List.nil_append]
              exact dropWhite_of_isStart start _
            rw [takeItems_item atom (.inr rfl) white (by simp at longer; omega)]
            rfl
        | first :: second :: others =>
            have fewer : (first :: second :: others).length < fuel := by omega
            have lines := takeItems_lines atoms fewer depth [] rest
            exact ⟨_, rfl, by simpa using lines⟩
      obtain ⟨inner, printed, items⟩ := read
      rw [printed, List.cons_append]
      exact bind_eq_ok_iff.mpr ⟨_, items, rfl⟩

end LogIntake.Toml
