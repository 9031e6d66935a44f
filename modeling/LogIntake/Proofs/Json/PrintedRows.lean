import LogIntake.Proofs.Json.PrintedText
import LogIntake.Proofs.Json.Records

/-! Lists and objects as they are printed, read element by element and member by member. Both
layouts of the printer are rows of pieces with commas between them, and they differ only in the
blanks that stand in front of a piece and of the closing bracket.
-/

namespace LogIntake.Json

open Text.Utf8

variable {α β σ : Type}

-----------------------------------------------------------------------------------------
-- Readers in front of what follows
-----------------------------------------------------------------------------------------

/-- What may stand behind a value: nothing that would carry a number on. -/
def EndsValue (rest : List UInt8) : Prop :=
  ∀ byte ∈ rest.head?, isDigit byte = false ∧ byte ≠ byteOf '.' ∧ atExponent [byte] = false

/-- The reader takes the characters for the value, wherever a value may end behind them. -/
def Spells (read : Reader α) (chars : List Char) (value : α) : Prop :=
  ∀ rest, EndsValue rest → read (encodeChars chars ++ rest) = .ok (value, rest)

theorem endsValue_nil : EndsValue [] :=
  nofun

/-- The reader passes over blanks in front of its value. -/
def PassesBlanks (read : Reader α) : Prop :=
  ∀ bytes, read (skipBlanks bytes) = read bytes

namespace Spells

variable {read : Reader α} {chars : List Char} {value : α}

theorem afterBlank (spells : Spells read chars value) (passes : PassesBlanks read)
    : Spells read (' ' :: chars) value := by
  intro rest ends
  have skipped (bytes : List UInt8) : skipBlanks (0x20 :: bytes) = skipBlanks bytes := rfl
  rw [← spells rest ends, ← passes, ← passes (encodeChars chars ++ rest)]
  exact congrArg read (skipped _)

/-- The value of a member stands behind its colon. -/
theorem afterColon (spells : Spells read chars value)
    : Spells (memberValue read) (':' :: chars) value := by
  intro rest ends
  exact memberValue_eq_ok_iff.mpr ⟨encodeChars chars ++ rest, rfl, spells rest ends⟩

/-- A text that spells a value is a document. -/
theorem document (spells : Spells read chars value)
    : readDocument read (encodeChars chars) = .ok value := by
  refine readDocument_eq_ok_iff.mpr ⟨[], ?_, rfl⟩
  have whole := spells [] endsValue_nil
  rwa [List.append_nil] at whole

end Spells

-----------------------------------------------------------------------------------------
-- Rows of pieces
-----------------------------------------------------------------------------------------

/-- Pieces with commas between them, and with a comma in front if there are pieces before them. The
same characters stand in front of each piece.
-/
def row (first : Bool) (lead : List Char) : List (List Char) → List Char
  | [] => []
  | piece :: rest => (if first then [] else [',']) ++ lead ++ piece ++ row false lead rest

theorem row_false_cons (lead piece : List Char) (rest : List (List Char))
    : row false lead (piece :: rest) = ',' :: row true lead (piece :: rest) := by
  simp [row]

/-- A printer that sets commas between its items prints a row, by induction on the items. -/
theorem eq_row (print : List β → List Char) (text : β → List Char) (lead : List Char)
    (none : print [] = []) (last : ∀ item, print [item] = lead ++ text item)
    (further
      : ∀ item next rest,
          print (item :: next :: rest) = lead ++ text item ++ ',' :: print (next :: rest))
    (items : List β)
    : print items = row true lead (items.map text) := by
  induction items with
  | nil => exact none
  | cons item items ih =>
      cases items with
      | nil => simp [last, row]
      | cons next items =>
          rw [further, ih, List.map_cons, List.map_cons, ← row_false_cons]
          simp [row]

/-- There is a comma between any two pieces. -/
theorem length_le_length_row (first : Bool) (lead : List Char) (pieces : List (List Char))
    : pieces.length ≤ (encodeChars (row first lead pieces)).length + 1 := by
  have later (pieces : List (List Char))
      : pieces.length ≤ (encodeChars (row false lead pieces)).length := by
    induction pieces with
    | nil => exact Nat.le_refl 0
    | cons piece rest ih =>
        have comma : (encodeChars [',']).length = 1 := rfl
        simp only [row, Bool.false_eq_true, if_false, encodeChars_append, List.length_append, comma,
          List.length_cons]
        omega
  cases pieces with
  | nil => exact Nat.zero_le _
  | cons piece rest =>
      have behind := later rest
      simp only [row, encodeChars_append, List.length_append, List.length_cons]
      omega

/-- There are fewer pieces than the bound on the steps over them. -/
theorem length_lt_length_closed (lead : List Char) (pieces : List (List Char)) (closing : List Char)
    (bracket : UInt8) (rest : List UInt8)
    : pieces.length
      < (encodeChars (row true lead pieces) ++ (encodeChars closing ++ bracket :: rest)).length
          + 1 := by
  have commas := length_le_length_row true lead pieces
  simp only [List.length_append, List.length_cons]
  omega

/-- Characters that both layouts use for blanks. -/
def Blank (lead : List Char) : Prop :=
  ∀ c ∈ lead, c = ' ' ∨ c = '\n'

theorem skipBlanks_blank {lead : List Char} (blank : Blank lead) (bytes : List UInt8)
    : skipBlanks (encodeChars lead ++ bytes) = skipBlanks bytes := by
  induction lead with
  | nil => rfl
  | cons c lead ih =>
      obtain ⟨first, rest⟩ := List.forall_mem_cons.mp blank
      rw [encodeChars_cons, List.append_assoc, ← ih rest]
      rcases first with rfl | rfl <;> rfl

/-- A value may end in front of blanks. -/
theorem endsValue_blank {lead : List Char} (blank : Blank lead) {rest : List UInt8}
    (ends : EndsValue rest)
    : EndsValue (encodeChars lead ++ rest) := by
  cases lead with
  | nil => exact ends
  | cons c lead =>
      rw [encodeChars_cons]
      rcases blank c List.mem_cons_self with rfl | rfl
      all_goals
        rintro _ ⟨⟩
        decide

/-- A value may end in front of further pieces. -/
theorem endsValue_row (lead : List Char) (pieces : List (List Char)) {rest : List UInt8}
    (ends : EndsValue rest)
    : EndsValue (encodeChars (row false lead pieces) ++ rest) := by
  cases pieces with
  | nil => exact ends
  | cons piece pieces =>
      rw [row_false_cons, encodeChars_cons]
      rintro _ ⟨⟩
      decide

-----------------------------------------------------------------------------------------
-- Members
-----------------------------------------------------------------------------------------

/-- Members, each a name with the characters from its colon on, that take the reader of an object
from one state to another.
-/
inductive MemberRow (step : σ → String → Reader σ) : σ → List (String × List Char) → σ → Prop
  | nil (state : σ) : MemberRow step state [] state
  | cons {state next final name chars members} (spells : Spells (step state name) chars next)
    (rest : MemberRow step next members final)
    : MemberRow step state ((name, chars) :: members) final

def memberChars (member : String × List Char) : List Char :=
  quoteText member.1 ++ member.2

/-- The first member of a row is the next one that is read. -/
theorem startMember_row (first : Bool) {lead : List Char} (blank : Blank lead) (name : String)
    (chars : List Char) (members : List (String × List Char)) (behind : List UInt8)
    : startMember first
        (encodeChars (row first lead (((name, chars) :: members).map memberChars)) ++ behind)
      = .ok
          (some name,
            encodeChars chars
              ++ (encodeChars (row false lead (members.map memberChars)) ++ behind)) := by
  generalize further : encodeChars (row false lead (members.map memberChars)) ++ behind = later
  have text
      : encodeChars (row true lead (((name, chars) :: members).map memberChars)) ++ behind
        = encodeChars lead
            ++ byteOf '"' :: (encodeChars (name.toList.flatMap escapeChar)
              ++ byteOf '"' :: (encodeChars chars ++ later)) := by
    rw [← further]
    simp [row, memberChars, encodeChars_quoteText]
  have quote (quoted : List UInt8)
      : skipBlanks (encodeChars lead ++ byteOf '"' :: quoted) = byteOf '"' :: quoted :=
    skipBlanks_blank blank _
  refine startMember_eq_some_iff.mpr ⟨_, ?_, readString_escaped name _⟩
  cases first with
  | true =>
      rw [text]
      exact quote _
  | false =>
      rw [List.map_cons, row_false_cons, encodeChars_cons, List.append_assoc, ← List.map_cons, text]
      exact ⟨_, rfl, quote _⟩

/-- Members of an object are read one by one up to the brace, by induction on them. -/
theorem foldMembers_row {step : σ → String → Reader σ} {members : List (String × List Char)}
    {state final : σ} (spelt : MemberRow step state members final) {lead closing : List Char}
    (blankLead : Blank lead) (blankClosing : Blank closing) {bound : Nat}
    (enough : members.length < bound) (first : Bool) (rest : List UInt8)
    : foldMembers step bound first state
        (encodeChars (row first lead (members.map memberChars))
          ++ (encodeChars closing ++ byteOf '\x7d' :: rest))
      = .ok (final, rest) := by
  have endsClosing : EndsValue (encodeChars closing ++ byteOf '\x7d' :: rest) :=
    endsValue_blank blankClosing (by rintro _ ⟨⟩; decide)
  induction spelt generalizing bound first with
  | nil state =>
      obtain ⟨bound, rfl⟩ := Nat.exists_eq_succ_of_ne_zero (Nat.ne_zero_of_lt enough)
      have ended : startMember first (encodeChars closing ++ byteOf '\x7d' :: rest)
          = .ok (none, rest) :=
        startMember_eq_none_iff.mpr (skipBlanks_blank blankClosing _)
      rw [foldMembers_succ]
      exact bind_eq_ok_iff.mpr ⟨_, formal_eq_ok_iff.mpr ended, rfl⟩
  | @cons state next final name chars members spells _ ih =>
      obtain ⟨bound, rfl⟩ := Nat.exists_eq_succ_of_ne_zero (Nat.ne_zero_of_lt enough)
      have started := startMember_row first blankLead name chars members
        (encodeChars closing ++ byteOf '\x7d' :: rest)
      have stepped := spells _ (endsValue_row lead (members.map memberChars) endsClosing)
      rw [foldMembers_succ]
      refine bind_eq_ok_iff.mpr ⟨_, formal_eq_ok_iff.mpr started, ?_⟩
      exact bind_eq_ok_iff.mpr ⟨_, stepped, ih (Nat.lt_of_succ_lt_succ enough) false⟩

theorem readMembers_row {step : σ → String → Reader σ} {members : List (String × List Char)}
    {init final : σ} (spelt : MemberRow step init members final) {lead closing : List Char}
    (blankLead : Blank lead) (blankClosing : Blank closing)
    : Spells (readMembers init step)
        (row true lead (members.map memberChars) ++ (closing ++ ['\x7d'])) final := by
  intro rest _
  have enough := length_lt_length_closed lead (members.map memberChars) closing (byteOf '\x7d') rest
  rw [List.length_map] at enough
  rw [encodeChars_append, encodeChars_append, List.append_assoc, List.append_assoc]
  exact foldMembers_row spelt blankLead blankClosing enough true rest

-----------------------------------------------------------------------------------------
-- Elements
-----------------------------------------------------------------------------------------

/-- Reads an element in front of the elements before it. -/
def pushElement (read : Reader α) (items : List α) : Reader (List α) := fun bytes => do
  let (item, bytes) ← read bytes
  return (item :: items, bytes)

/-- The reader takes no closing bracket for the start of a value. -/
def PassesNoBracket (read : Reader α) : Prop :=
  ∀ {bytes value rest},
    read bytes = .ok (value, rest)
    → ∃ byte behind, skipBlanks bytes = byte :: behind ∧ byte ≠ byteOf ']'

section Elements

variable {read : Reader α} {text : β → List Char} {value : β → α} {lead closing : List Char}

/-- The first element of a row is the next one that is read. -/
theorem nextElement_row (passes : PassesBlanks read) (noBracket : PassesNoBracket read)
    (first : Bool) (blank : Blank lead) {piece : List Char} {pieces : List (List Char)} {item : α}
    (spells : Spells read piece item) {behind : List UInt8} (ends : EndsValue behind)
    : ∃ element,
        nextElement first (encodeChars (row first lead (piece :: pieces)) ++ behind)
          = .ok (true, element)
        ∧ read element = .ok (item, encodeChars (row false lead pieces) ++ behind) := by
  have done := spells _ (endsValue_row lead pieces ends)
  have text
      : encodeChars (row true lead (piece :: pieces)) ++ behind
        = encodeChars lead
            ++ (encodeChars piece ++ (encodeChars (row false lead pieces) ++ behind)) := by
    simp [row]
  have start := skipBlanks_blank blank
    (encodeChars piece ++ (encodeChars (row false lead pieces) ++ behind))
  obtain ⟨byte, inner, skipped, notClosing⟩ := noBracket done
  refine ⟨_, nextElement_eq_true_iff.mpr ⟨?_, byte, inner, skipped, notClosing⟩, ?_⟩
  · cases first with
    | true =>
        rw [text]
        exact start
    | false =>
        rw [row_false_cons, encodeChars_cons, List.append_assoc, text]
        exact ⟨_, rfl, start⟩
  · rw [passes]
    exact done

/-- Elements of a list are read one by one up to the bracket, by induction on them. -/
theorem foldElements_row (passes : PassesBlanks read) (noBracket : PassesNoBracket read)
    {items : List β} (spelt : ∀ item ∈ items, Spells read (text item) (value item))
    (blankLead : Blank lead) (blankClosing : Blank closing) {bound : Nat}
    (enough : items.length < bound) (first : Bool) (before : List α) (rest : List UInt8)
    : foldElements (pushElement read) bound first before
        (encodeChars (row first lead (items.map text))
          ++ (encodeChars closing ++ byteOf ']' :: rest))
      = .ok ((items.map value).reverse ++ before, rest) := by
  have endsClosing : EndsValue (encodeChars closing ++ byteOf ']' :: rest) :=
    endsValue_blank blankClosing (by rintro _ ⟨⟩; decide)
  induction items generalizing bound first before with
  | nil =>
      obtain ⟨bound, rfl⟩ := Nat.exists_eq_succ_of_ne_zero (Nat.ne_zero_of_lt enough)
      have ended
          : nextElement first (encodeChars closing ++ byteOf ']' :: rest)
            = .ok (false, byteOf ']' :: rest) :=
        nextElement_eq_false_iff.mpr ⟨rest, rfl, skipBlanks_blank blankClosing _⟩
      exact bind_eq_ok_iff.mpr ⟨_, formal_eq_ok_iff.mpr ended, rfl⟩
  | cons item items ih =>
      obtain ⟨bound, rfl⟩ := Nat.exists_eq_succ_of_ne_zero (Nat.ne_zero_of_lt enough)
      obtain ⟨spells, others⟩ := List.forall_mem_cons.mp spelt
      obtain ⟨element, next, done⟩ :=
        nextElement_row passes noBracket first blankLead spells endsClosing
      have further := ih others (Nat.lt_of_succ_lt_succ enough) false (value item :: before)
      rw [List.map_cons, List.map_cons, List.reverse_cons, List.append_assoc,
        List.singleton_append]
      refine bind_eq_ok_iff.mpr ⟨_, formal_eq_ok_iff.mpr next, ?_⟩
      refine bind_eq_ok_iff.mpr ⟨(value item :: before, _), ?_, further⟩
      exact bind_eq_ok_iff.mpr ⟨_, done, rfl⟩

theorem readElements_row (passes : PassesBlanks read) (noBracket : PassesNoBracket read)
    {items : List β} (spelt : ∀ item ∈ items, Spells read (text item) (value item))
    (blankLead : Blank lead) (blankClosing : Blank closing)
    : Spells (readElements [] (pushElement read))
        (row true lead (items.map text) ++ (closing ++ [']'])) (items.map value).reverse := by
  intro rest _
  have enough := length_lt_length_closed lead (items.map text) closing (byteOf ']') rest
  rw [List.length_map] at enough
  rw [encodeChars_append, encodeChars_append, List.append_assoc, List.append_assoc]
  have done := foldElements_row passes noBracket spelt blankLead blankClosing enough true [] rest
  rwa [List.append_nil] at done

end Elements

end LogIntake.Json
