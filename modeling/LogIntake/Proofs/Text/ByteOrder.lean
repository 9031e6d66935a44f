import LogIntake.Proofs.Text.Utf8
import Mathlib.Data.List.Lex

/-! Texts in the order of their bytes. A longer character has a greater first byte, and of two
characters of the same length the greater one has the greater bytes, so the order of bytes is the
order of code points.
-/

namespace LogIntake.Text.Utf8

/-- The bytes of one text come before those of another in the order of a dictionary. -/
def BytesBefore (first second : String) : Prop :=
  List.Lex (· < ·) (encode first) (encode second)

/-- The bytes of a lesser character come before those of a greater one, whatever follows either. -/
theorem lex_utf8EncodeChar {c d : Char} (less : c < d) (rest other : List UInt8)
    : List.Lex (· < ·) (String.utf8EncodeChar c ++ rest) (String.utf8EncodeChar d ++ other) := by
  have codes : c.val.toNat < d.val.toNat := UInt32.lt_iff_toNat_lt.mp less
  have scalar : d.val.toNat < 0xD800 ∨ 0xDFFF < d.val.toNat ∧ d.val.toNat < 0x110000 := d.valid
  -- Each byte but the first holds six bits of the quotient by what is behind it.
  have upper (code : Nat) : code / 0x40 / 0x40 = code / 0x1000 := Nat.div_div_eq_div_mul ..
  have highest (code : Nat) : code / 0x1000 / 0x40 = code / 0x40000 := Nat.div_div_eq_div_mul ..
  have upperLess := upper c.val.toNat
  have upperMore := upper d.val.toNat
  have highestLess := highest c.val.toNat
  have highestMore := highest d.val.toNat
  unfold String.utf8EncodeChar
  dsimp only
  split_ifs
  all_goals
    simp only [List.cons_append, List.nil_append, List.cons_lex_cons_iff, UInt8.lt_iff_toNat_lt,
      ← UInt8.toNat_inj, UInt8.toNat_ofNat']
    simp (disch := omega) only [Nat.mod_eq_of_lt]
    omega

/-- Texts are in the order of their bytes if their characters are in order, by induction on the
place of the first difference.
-/
theorem lex_encodeChars {first second : List Char} (less : List.Lex (· < ·) first second)
    : List.Lex (· < ·) (encodeChars first) (encodeChars second) := by
  induction less with
  | @nil c chars =>
      obtain ⟨byte, bytes, code⟩ := List.exists_cons_of_ne_nil (String.utf8EncodeChar_ne_nil (c := c))
      rw [encodeChars_cons, code]
      exact .nil
  | rel less => exact lex_utf8EncodeChar less _ _
  | cons _ ih => exact List.Lex.append_left _ ih _

theorem bytesBefore_of_lt {first second : String} (less : first < second)
    : BytesBefore first second :=
  lex_encodeChars (List.lex_lt.mpr (String.lt_iff.mp less))

/-- The order of bytes is the order of code points. Witness: the order of code points is total. -/
theorem bytesBefore_iff_lt {first second : String} : BytesBefore first second ↔ first < second := by
  refine ⟨fun before => ?_, bytesBefore_of_lt⟩
  by_contra notLess
  have ge : second ≤ first := String.not_lt.mp notLess
  by_cases less : second < first
  · exact List.lex_asymm (fun {byte other} => UInt8.lt_asymm) before (bytesBefore_of_lt less)
  · have same : first = second := String.le_antisymm (String.not_lt.mp less) ge
    exact List.lex_irrefl (fun byte => UInt8.lt_irrefl byte) _ (same ▸ before)

end LogIntake.Text.Utf8
