import LogIntake.Text.Quoted
import Mathlib.Logic.Basic
import Mathlib.Tactic.SplitIfs

/-! Printed text that tells where it ends. Where a value is printed in front of any text, the value
and the text behind it can be told from the whole, without a length or an index. Quoted text is
printed in this way, since no escape begins with a quote and every escape tells its character.
-/

namespace LogIntake.Text

variable {α β : Type} {fits : α → Prop} {print : α → List β}

theorem append_ne_cons {text rest behind : List β} {mark : β}
    (begins : ∃ head tail, text = head :: tail ∧ head ≠ mark)
    : text ++ rest ≠ mark :: behind := by
  obtain ⟨head, tail, rfl, different⟩ := begins
  exact fun same => different (List.cons.inj same).1

/-- What is printed of fit values can be told from whatever follows it. -/
structure SelfDelimiting (fits : α → Prop) (print : α → List β) : Prop where
  cut
    : ∀ {first second : α} {rest behind : List β},
        fits first
        → fits second
        → print first ++ rest = print second ++ behind
        → first = second ∧ rest = behind

namespace SelfDelimiting

/-- Printing the same in front of every value changes nothing. -/
theorem lead (own : SelfDelimiting fits print) (front : List β)
    : SelfDelimiting fits fun value => front ++ print value where
  cut := by
    intro first second rest behind fit otherFit same
    rw [List.append_assoc, List.append_assoc] at same
    exact own.cut fit otherFit (List.append_cancel_left same)

/-- What ends at a mark may be cut at its mark. -/
theorem cut_mark {mark : β} (own : SelfDelimiting fits fun value => print value ++ [mark])
    {first second : α} {rest behind : List β} (fit : fits first) (otherFit : fits second)
    (same : print first ++ mark :: rest = print second ++ mark :: behind)
    : first = second ∧ rest = behind := by
  refine own.cut fit otherFit ?_
  simpa only [List.append_assoc, List.singleton_append] using same

/-- A text ends at a mark that does not occur in it, by induction on the text. -/
theorem marked (mark : β) : SelfDelimiting (mark ∉ ·) (· ++ [mark]) where
  cut := by
    intro first second rest behind absent otherAbsent same
    induction first generalizing second with
    | nil =>
        cases second with
        | nil => exact ⟨rfl, (List.cons.inj same).2⟩
        | cons next second =>
            obtain ⟨rfl, _⟩ := List.cons.inj same
            exact absurd List.mem_cons_self otherAbsent
    | cons item first ih =>
        cases second with
        | nil =>
            obtain ⟨rfl, _⟩ := List.cons.inj same
            exact absurd List.mem_cons_self absent
        | cons next second =>
            obtain ⟨sameHead, sameTail⟩ := List.cons.inj same
            obtain ⟨sameText, behind⟩ := ih (List.not_mem_of_not_mem_cons absent)
              (List.not_mem_of_not_mem_cons otherAbsent) sameTail
            exact ⟨by rw [sameHead, sameText], behind⟩

/-- Values in a row end at a mark that the print of none of them begins with, by induction on the
first of the rows.
-/
theorem row (own : SelfDelimiting fits print) (mark : β)
    (begins : ∀ value, fits value → ∃ head tail, print value = head :: tail ∧ head ≠ mark)
    : SelfDelimiting (fun values : List α => ∀ value ∈ values, fits value)
        fun values => values.flatMap print ++ [mark] where
  cut := by
    intro first second rest behind fit otherFit same
    simp only [List.append_assoc, List.singleton_append] at same
    induction first generalizing second with
    | nil =>
        cases second with
        | nil => exact ⟨rfl, (List.cons.inj same).2⟩
        | cons value second =>
            rw [List.flatMap_cons, List.append_assoc] at same
            exact absurd same.symm (append_ne_cons (begins _ (otherFit value List.mem_cons_self)))
    | cons value first ih =>
        obtain ⟨headFit, fit⟩ := List.forall_mem_cons.mp fit
        rw [List.flatMap_cons, List.append_assoc] at same
        cases second with
        | nil => exact absurd same (append_ne_cons (begins _ headFit))
        | cons other second =>
            obtain ⟨otherHeadFit, otherFit⟩ := List.forall_mem_cons.mp otherFit
            rw [List.flatMap_cons, List.append_assoc] at same
            obtain ⟨sameHead, sameTail⟩ := own.cut headFit otherHeadFit same
            obtain ⟨sameValues, behind⟩ := ih fit otherFit sameTail
            exact ⟨by rw [sameHead, sameValues], behind⟩

theorem intercalate_cons (separator first : List β) (texts : List (List β))
    : separator.intercalate (first :: texts) = first ++ texts.flatMap (separator ++ ·) := by
  induction texts generalizing first with
  | nil => simp
  | cons next texts ih =>
      rw [List.intercalate_cons_cons, ih, List.flatMap_cons, List.append_assoc]
      simp only [List.append_assoc]

/-- So do values with a separator between them. The first of them is looked at apart, as there is no
separator in front of it.
-/
theorem separated (own : SelfDelimiting fits print) {mark lead : β} (separator : List β)
    (ahead : lead ≠ mark)
    (begins : ∀ value, fits value → ∃ head tail, print value = head :: tail ∧ head ≠ mark)
    : SelfDelimiting (fun values : List α => ∀ value ∈ values, fits value)
        fun values => (lead :: separator).intercalate (values.map print) ++ [mark] where
  cut := by
    have row := (own.lead (lead :: separator)).row mark fun value _ => ⟨lead, _, rfl, ahead⟩
    have printed (value : α) (values : List α) (rest : List β)
        : ((lead :: separator).intercalate ((value :: values).map print) ++ [mark]) ++ rest
          = print value
            ++ ((values.flatMap fun value => (lead :: separator) ++ print value) ++ [mark]
              ++ rest) := by
      rw [List.map_cons, intercalate_cons, List.flatMap_map]
      simp only [List.append_assoc]
    intro first second rest behind fit otherFit same
    cases first with
    | nil =>
        cases second with
        | nil => exact ⟨rfl, (List.cons.inj same).2⟩
        | cons value second =>
            rw [printed] at same
            exact absurd same.symm (append_ne_cons (begins _ (otherFit value List.mem_cons_self)))
    | cons value first =>
        obtain ⟨headFit, fit⟩ := List.forall_mem_cons.mp fit
        rw [printed] at same
        cases second with
        | nil => exact absurd same (append_ne_cons (begins _ headFit))
        | cons other second =>
            obtain ⟨otherHeadFit, otherFit⟩ := List.forall_mem_cons.mp otherFit
            rw [printed] at same
            obtain ⟨sameHead, sameTail⟩ := own.cut headFit otherHeadFit same
            obtain ⟨sameValues, behind⟩ := row.cut fit otherFit sameTail
            exact ⟨by rw [sameHead, sameValues], behind⟩

end SelfDelimiting

-----------------------------------------------------------------------------------------
-- Quoted text
-----------------------------------------------------------------------------------------

namespace Quoted

theorem digitChar_inj {m n : Nat} (small : m < 16) (otherSmall : n < 16)
    (same : Nat.digitChar m = Nat.digitChar n)
    : m = n := by
  have table : ∀ m < 16, ∀ n < 16, Nat.digitChar m = Nat.digitChar n → m = n := by decide
  exact table m small n otherSmall same

theorem hexDigits_of_lt {n : Nat} (small : n < 16) : hexDigits n = [Nat.digitChar n] :=
  Nat.toDigits_of_lt_base small

theorem hexDigits_of_le {n : Nat} (great : 16 ≤ n)
    : hexDigits n = hexDigits (n / 16) ++ [Nat.digitChar (n % 16)] :=
  Nat.toDigits_of_base_le (by decide) great

theorem hexDigits_ne_nil (n : Nat) : hexDigits n ≠ [] :=
  Nat.toDigits_ne_nil

/-- Different numbers have different digits, by induction on the number without its last digit. -/
theorem hexDigits_injective : Function.Injective hexDigits := by
  intro m
  induction m using Nat.strongRecOn with
  | ind m ih =>
      intro n same
      rcases Nat.lt_or_ge m 16 with small | great <;> rcases Nat.lt_or_ge n 16 with low | high
      · rw [hexDigits_of_lt small, hexDigits_of_lt low] at same
        exact digitChar_inj small low (List.cons.inj same).1
      · rw [hexDigits_of_lt small, hexDigits_of_le high] at same
        obtain ⟨empty, _⟩ := List.append_singleton_inj.mp ((List.nil_append _).trans same)
        exact absurd empty.symm (hexDigits_ne_nil _)
      · rw [hexDigits_of_le great, hexDigits_of_lt low] at same
        obtain ⟨empty, _⟩ := List.append_singleton_inj.mp (same.trans (List.nil_append _).symm)
        exact absurd empty (hexDigits_ne_nil _)
      · rw [hexDigits_of_le great, hexDigits_of_le high] at same
        obtain ⟨front, last⟩ := List.append_singleton_inj.mp same
        have quotient := ih (m / 16) (Nat.div_lt_self (by omega) (by decide)) front
        have remainder :=
          digitChar_inj (Nat.mod_lt m (by decide)) (Nat.mod_lt n (by decide)) last
        omega

/-- The brace that closes an escape is no digit. -/
theorem brace_notMem_hexDigits (n : Nat) : '\x7d' ∉ hexDigits n := by
  have table : ∀ m < 16, Nat.digitChar m ≠ '\x7d' := by decide
  induction n using Nat.strongRecOn with
  | ind n ih =>
      rcases Nat.lt_or_ge n 16 with small | great
      · rw [hexDigits_of_lt small, List.mem_singleton]
        exact (table n small).symm
      · rw [hexDigits_of_le great, List.mem_append, List.mem_singleton, not_or]
        exact ⟨ih (n / 16) (Nat.div_lt_self (by omega) (by decide)),
          (table _ (Nat.mod_lt n (by decide))).symm⟩

/-- The characters that are escaped by a letter, each behind its letter. -/
def letters : List (Char × Char) :=
  [('"', '"'), ('\\', '\\'), ('n', '\n'), ('r', '\r'), ('t', '\t'), ('0', Char.ofNat 0)]

/-- How a character is printed between quotes. -/
inductive Escapes (c : Char) : List Char → Prop
  | plain (noQuote : c ≠ '"') (noBackslash : c ≠ '\\') : Escapes c [c]
  | letter {letter} (listed : (letter, c) ∈ letters) : Escapes c ['\\', letter]
  | number : Escapes c ('\\' :: 'u' :: '\x7b' :: (hexDigits c.toNat ++ ['\x7d']))

theorem escapes (c : Char) : Escapes c (escape c) := by
  unfold escape
  split_ifs with quote backslash feed ret tab zero plain
  · exact .letter (by simp [letters, quote])
  · exact .letter (by simp [letters, backslash])
  · exact .letter (by simp [letters, feed])
  · exact .letter (by simp [letters, ret])
  · exact .letter (by simp [letters, tab])
  · have isZero : c = Char.ofNat 0 := Char.toNat_inj.mp zero
    exact .letter (by simp [letters, isZero])
  · exact .plain quote backslash
  · exact .number

theorem letters_unique {letter c d : Char} (first : (letter, c) ∈ letters)
    (second : (letter, d) ∈ letters)
    : c = d := by
  have table : ∀ entry ∈ letters, ∀ other ∈ letters, entry.1 = other.1 → entry.2 = other.2 := by
    decide
  exact table _ first _ second rfl

theorem letters_ne_u {c : Char} : ('u', c) ∉ letters := by
  have table : ∀ entry ∈ letters, entry.1 ≠ 'u' := by decide
  exact fun listed => table _ listed rfl

/-- An escape tells its character, whatever follows. Only the first two characters are looked at
for the form, and a number ends at its brace.
-/
theorem escape_selfDelimiting : SelfDelimiting (fun _ => True) escape := by
  refine ⟨fun {c d rest behind} _ _ same => ?_⟩
  have first := escapes c
  have second := escapes d
  generalize escape c = print at first same
  generalize escape d = other at second same
  cases first with
  | plain _ noBackslash =>
      cases second with
      | plain => simpa using same
      | letter | number => exact absurd (List.cons.inj same).1 noBackslash
  | letter listed =>
      cases second with
      | plain _ noBackslash => exact absurd (List.cons.inj same).1.symm noBackslash
      | letter otherListed =>
          simp only [List.cons_append, List.nil_append, List.cons.injEq, true_and] at same
          obtain ⟨rfl, rfl⟩ := same
          exact ⟨letters_unique listed otherListed, rfl⟩
      | number =>
          simp only [List.cons_append, List.nil_append, List.cons.injEq, true_and] at same
          obtain ⟨rfl, _⟩ := same
          exact absurd listed letters_ne_u
  | number =>
      cases second with
      | plain _ noBackslash => exact absurd (List.cons.inj same).1.symm noBackslash
      | letter otherListed =>
          simp only [List.cons_append, List.nil_append, List.cons.injEq, true_and] at same
          obtain ⟨rfl, _⟩ := same
          exact absurd otherListed letters_ne_u
      | number =>
          simp only [List.cons_append, List.cons.injEq, true_and] at same
          obtain ⟨digits, rfl⟩ := (SelfDelimiting.marked '\x7d').cut (brace_notMem_hexDigits _)
            (brace_notMem_hexDigits _) same
          exact ⟨Char.toNat_inj.mp (hexDigits_injective digits), rfl⟩

/-- No escape begins with the quote that ends the text. -/
theorem exists_escape_eq_cons (c : Char) : ∃ head tail, escape c = head :: tail ∧ head ≠ '"' := by
  cases printed : escape c with
  | nil =>
      have how := escapes c
      rw [printed] at how
      cases how
  | cons head tail =>
      have how := escapes c
      rw [printed] at how
      refine ⟨head, tail, rfl, ?_⟩
      cases how with
      | plain noQuote _ => exact noQuote
      | letter | number => decide

/-- Quoted text ends at its own closing quote, whatever it holds and whatever follows it. -/
theorem encode_selfDelimiting : SelfDelimiting (fun _ => True) encode where
  cut _ _ same :=
    ((escape_selfDelimiting.row '"' fun c _ => exists_escape_eq_cons c).lead ['"']).cut
      (fun _ _ => trivial) (fun _ _ => trivial) same

end Quoted

end LogIntake.Text
