import LogIntake.Proofs.Label.NameGrammar
import LogIntake.Unicode.CodeRanges
import Mathlib.Tactic.SplitIfs

/-! Which characters are in a set of code points, for the sets that patterns of this library name:
the characters of a line, and the characters of a label name.
-/

namespace LogIntake.Unicode.CodeRanges

open Label

theorem contains_nil (code : Nat) : contains [] code = false :=
  rfl

theorem contains_cons_iff {range : CodeRange} {rest : CodeRanges} {code : Nat}
    : contains (range :: rest) code = true
      ↔ range.first ≤ code ∧ (code ≤ range.last ∨ contains rest code = true) := by
  rw [contains]
  split_ifs with below within
  · simp [Nat.not_le.mpr below]
  · simp [Nat.not_lt.mp below, within]
  · simp [Nat.not_lt.mp below, within]

/-- All characters that do not end a line. -/
def line : CodeRanges :=
  [⟨0, 9⟩, ⟨11, maxCodePoint⟩]

theorem line_contains_iff {c : Char} : line.contains c.toNat = true ↔ c ≠ '\n' := by
  have scalar : c.toNat < 0xD800 ∨ 0xDFFF < c.toNat ∧ c.toNat < 0x110000 := c.valid
  have lineBreak : c = '\n' ↔ c.toNat = 10 := Char.toNat_inj.symm
  rw [Ne, lineBreak]
  simp only [line, maxCodePoint, contains_cons_iff, contains_nil, Bool.false_eq_true, or_false]
  omega

theorem single_contains_iff {c : Char} (d : Char)
    : contains [⟨d.toNat, d.toNat⟩] c.toNat = true ↔ c = d := by
  rw [contains_cons_iff, contains_nil, ← Char.toNat_inj]
  simp only [Bool.false_eq_true, or_false]
  omega

/-- The characters that a label name may begin with. -/
def nameStart : CodeRanges :=
  [⟨0x41, 0x5A⟩, ⟨0x5F, 0x5F⟩, ⟨0x61, 0x7A⟩]

/-- The characters that a label name may go on with. -/
def nameRest : CodeRanges :=
  [⟨0x30, 0x39⟩, ⟨0x41, 0x5A⟩, ⟨0x5F, 0x5F⟩, ⟨0x61, 0x7A⟩]

theorem le_iff_toNat_le {c d : Char} : c ≤ d ↔ c.toNat ≤ d.toNat :=
  Char.le_def.trans UInt32.le_iff_toNat_le

theorem nameStart_contains_iff {c : Char} : nameStart.contains c.toNat = true ↔ BeginsName c := by
  have underscore : c = '_' ↔ c.toNat = 0x5F := Char.toNat_inj.symm
  have ends : 'a'.toNat = 0x61 ∧ 'z'.toNat = 0x7A ∧ 'A'.toNat = 0x41 ∧ 'Z'.toNat = 0x5A := by decide
  simp only [nameStart, contains_cons_iff, contains_nil, Bool.false_eq_true, or_false, BeginsName,
    le_iff_toNat_le, underscore, ends]
  omega

theorem nameRest_contains_iff {c : Char} : nameRest.contains c.toNat = true ↔ ContinuesName c := by
  have ends : '0'.toNat = 0x30 ∧ '9'.toNat = 0x39 := by decide
  rw [ContinuesName, ← nameStart_contains_iff]
  simp only [nameRest, nameStart, contains_cons_iff, contains_nil, Bool.false_eq_true, or_false,
    le_iff_toNat_le, ends]
  omega

end LogIntake.Unicode.CodeRanges
