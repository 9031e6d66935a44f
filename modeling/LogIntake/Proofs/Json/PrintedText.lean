import LogIntake.Json.Printer
import LogIntake.Json.Lexeme
import LogIntake.Proofs.Text.Utf8
import LogIntake.Proofs.Outcome
import Mathlib.Tactic.IntervalCases

/-! Texts as the printer quotes them, read back from their bytes. Every character between the quotes
stands for itself or is an escape, and either way the reader comes to the bytes of that character.
-/

namespace LogIntake.Json

open Text.Utf8

/-- Bytes between quotes that are read as the bytes of a value, in no more steps than there are
bytes.
-/
def Passes (taken value : List UInt8) : Prop :=
  ∃ steps,
    steps ≤ taken.length
    ∧ ∀ fuel before rest,
        readStringBytes (fuel + steps) before (taken ++ rest)
        = readStringBytes fuel (value.reverse ++ before) rest

namespace Passes

theorem nil : Passes [] [] :=
  ⟨0, le_rfl, fun _ _ _ => rfl⟩

theorem append {first second value more : List UInt8} (left : Passes first value)
    (right : Passes second more)
    : Passes (first ++ second) (value ++ more) := by
  obtain ⟨steps, few, passes⟩ := left
  obtain ⟨further, fewer, passesOn⟩ := right
  refine ⟨further + steps, ?_, fun fuel before rest => ?_⟩
  · rw [List.length_append]
    omega
  · rw [← Nat.add_assoc, List.append_assoc, passes, passesOn, List.reverse_append,
      List.append_assoc]

theorem escape {code value : List UInt8}
    (read : ∀ rest, readEscape (code ++ rest) = .ok (value, rest))
    : Passes (0x5C :: code) value := by
  refine ⟨1, by simp, fun fuel before rest => ?_⟩
  rw [List.cons_append, readStringBytes, if_neg (by decide), if_pos rfl, read]

/-- Bytes that neither end the string nor begin an escape stand for themselves. -/
theorem plain {bytes : List UInt8}
    (plain : ∀ byte ∈ bytes, 0x20 ≤ byte ∧ byte ≠ 0x22 ∧ byte ≠ 0x5C)
    : Passes bytes bytes := by
  induction bytes with
  | nil => exact nil
  | cons byte bytes ih =>
      obtain ⟨⟨visible, noQuote, noEscape⟩, others⟩ := List.forall_mem_cons.mp plain
      have single : Passes [byte] [byte] := by
        refine ⟨1, le_rfl, fun fuel before rest => ?_⟩
        rw [List.singleton_append, readStringBytes, if_neg noQuote, if_neg noEscape,
          if_neg (UInt8.not_lt.mpr visible)]
        rfl
      exact single.append (ih others)

end Passes

/-- A control character is escaped, by its own letter or by its number. -/
theorem passes_control {code : Nat} (control : code < 0x20)
    : Passes (encodeChars (escapeChar (Char.ofNat code)))
        (String.utf8EncodeChar (Char.ofNat code)) := by
  interval_cases code
  all_goals exact .escape fun _ => rfl

theorem escapeChar_of_visible {c : Char} (visible : 0x20 ≤ c.toNat) (noQuote : c ≠ '"')
    (noBackslash : c ≠ '\\')
    : escapeChar c = [c] := by
  have other {code : Nat} (control : code < 0x20) : c.toNat ≠ code := by omega
  have noTab : c ≠ '\t' := fun same => other (by decide) (congrArg Char.toNat same)
  have noBreak : c ≠ '\n' := fun same => other (by decide) (congrArg Char.toNat same)
  have noReturn : c ≠ '\r' := fun same => other (by decide) (congrArg Char.toNat same)
  have noBackspace : c.toNat ≠ 0x08 := other (by decide)
  have noFeed : c.toNat ≠ 0x0C := other (by decide)
  simp only [escapeChar, noQuote, noBackslash, noTab, noBreak, noReturn, noBackspace, noFeed,
    Nat.not_lt.mpr visible, if_false]

/-- A character that is not escaped has no bytes that end the string or begin an escape. -/
theorem passes_visible {c : Char} (visible : 0x20 ≤ c.toNat) (noQuote : c ≠ '"')
    (noBackslash : c ≠ '\\')
    : Passes (String.utf8EncodeChar c) (String.utf8EncodeChar c) := by
  refine .plain fun byte member => ?_
  by_cases ascii : c.toNat < 0x80
  · rw [utf8EncodeChar_of_ascii ascii, List.mem_singleton] at member
    have number : byte.toNat = c.toNat := member ▸ toNat_ofNat (by omega)
    have other {mark : Char} (different : c ≠ mark) : byte.toNat ≠ mark.toNat := fun same =>
      different (Char.toNat_inj.mp (number.symm.trans same))
    refine ⟨UInt8.le_iff_toNat_le.mpr (number ▸ visible), ?_, ?_⟩
    · rintro rfl
      exact other noQuote rfl
    · rintro rfl
      exact other noBackslash rfl
  · have wide : 0x80 ≤ byte := le_of_mem_utf8EncodeChar (Nat.le_of_not_lt ascii) member
    refine ⟨UInt8.le_trans (by decide) wide, ?_, ?_⟩
    · rintro rfl
      exact absurd wide (by decide)
    · rintro rfl
      exact absurd wide (by decide)

/-- However a character is written between quotes, it is read as itself. -/
theorem passes_escapeChar (c : Char)
    : Passes (encodeChars (escapeChar c)) (String.utf8EncodeChar c) := by
  by_cases control : c.toNat < 0x20
  · have escaped := passes_control control
    rwa [Char.ofNat_toNat] at escaped
  by_cases isQuote : c = '"'
  · subst isQuote
    exact .escape fun _ => rfl
  by_cases isBackslash : c = '\\'
  · subst isBackslash
    exact .escape fun _ => rfl
  have visible := Nat.le_of_not_lt control
  rw [escapeChar_of_visible visible isQuote isBackslash, encodeChars_cons, encodeChars_nil,
    List.append_nil]
  exact passes_visible visible isQuote isBackslash

/-- What the printer writes between the quotes of a text is read as the text, by induction on its
characters.
-/
theorem passes_escaped (chars : List Char)
    : Passes (encodeChars (chars.flatMap escapeChar)) (encodeChars chars) := by
  induction chars with
  | nil => exact .nil
  | cons c chars ih =>
      rw [List.flatMap_cons, encodeChars_append, encodeChars_cons]
      exact (passes_escapeChar c).append ih

/-- Bytes that pass are read up to the quote behind them. -/
theorem Passes.readStringBytes_quote {taken value : List UInt8} (passes : Passes taken value)
    (rest : List UInt8)
    : readStringBytes ((taken ++ byteOf '"' :: rest).length + 1) [] (taken ++ byteOf '"' :: rest)
      = .ok (value, rest) := by
  obtain ⟨steps, few, passes⟩ := passes
  have enough
      : (taken ++ byteOf '"' :: rest).length + 1
        = taken.length - steps + rest.length + 1 + 1 + steps := by
    rw [List.length_append, List.length_cons]
    omega
  rw [enough, passes, List.append_nil, readStringBytes, if_pos (by decide), List.reverse_reverse]

/-- A text in quotes is read back, whatever follows it. -/
theorem readString_escaped (text : String) (rest : List UInt8)
    : readString (encodeChars (text.toList.flatMap escapeChar) ++ byteOf '"' :: rest)
      = .ok (text, rest) := by
  have content := (passes_escaped text.toList).readStringBytes_quote rest
  refine bind_eq_ok_iff.mpr ⟨_, content, ?_⟩
  simp only [decode?_encodeChars, String.ofList_toList]
  rfl

/-- A text is printed as a quote, the bytes that are read back, and a quote. -/
theorem encodeChars_quoteText (text : String)
    : encodeChars (quoteText text)
      = byteOf '"' :: (encodeChars (text.toList.flatMap escapeChar) ++ [byteOf '"']) := by
  rw [quoteText, List.cons_append, encodeChars_cons, encodeChars_append]
  rfl

end LogIntake.Json
