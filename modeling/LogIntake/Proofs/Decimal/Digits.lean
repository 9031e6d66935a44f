import Mathlib.Data.Nat.Digits.Defs

/-! The decimal digits of a number, as every printer here writes them. Each reader has a sum of its
own that it builds digit by digit; whichever it is, the digits add up to the number.
-/

namespace LogIntake.Decimal

theorem isDigit_of_mem_digits {n : Nat} {c : Char} (member : c ∈ Nat.toDigits 10 n)
    : c.isDigit = true :=
  Nat.isDigit_of_mem_toDigits (by decide) le_rfl member

theorem digits_ne_nil (n : Nat) : Nat.toDigits 10 n ≠ [] := by
  rw [Nat.toDigits_eq_if (by decide)]
  split <;> simp

/-- Digits are counted like those of a number, if each one is shifted in like a digit. -/
theorem foldl_digits_eq_ofDigitChars {step : Nat → Char → Nat} {digits : List Char}
    (shifts : ∀ value, ∀ c ∈ digits, step value c = value * 10 + (c.toNat - 48)) (value : Nat)
    : digits.foldl step value = Nat.ofDigitChars 10 digits value := by
  rw [Nat.ofDigitChars]
  induction digits generalizing value with
  | nil => rfl
  | cons c digits ih =>
      have head : step value c = 10 * value + (c.toNat - '0'.toNat) := by
        rw [shifts value c List.mem_cons_self, Nat.mul_comm]
        rfl
      rw [List.foldl_cons, List.foldl_cons, head]
      exact ih (fun value c member => shifts value c (List.mem_cons_of_mem _ member)) _

/-- The digits of a number add up to it. -/
theorem foldl_digits {step : Nat → Char → Nat}
    (shifts : ∀ value c, c.isDigit = true → step value c = value * 10 + (c.toNat - 48)) (n : Nat)
    : (Nat.toDigits 10 n).foldl step 0 = n := by
  rw [foldl_digits_eq_ofDigitChars fun value c member =>
    shifts value c (isDigit_of_mem_digits member)]
  exact Nat.ofDigitChars_toDigits (by decide) le_rfl

/-- Only zero starts with the digit zero, by induction on the number without its last digit. -/
theorem eq_zero_of_head?_digits {n : Nat} (zero : (Nat.toDigits 10 n).head? = some '0')
    : n = 0 := by
  induction n using Nat.strongRecOn with
  | ind n ih =>
      by_cases single : n < 10
      · rw [Nat.toDigits_of_lt_base single] at zero
        have table : ∀ n < 10, n.digitChar = '0' → n = 0 := by decide
        exact table n single (Option.some.inj zero)
      · have front : (Nat.toDigits 10 (n / 10)).head? = some '0' := by
          rw [Nat.toDigits_of_base_le (by decide) (by omega)] at zero
          cases digits : Nat.toDigits 10 (n / 10) with
          | nil => exact absurd digits (digits_ne_nil _)
          | cons c rest =>
              rw [digits] at zero
              exact zero
        have front := ih (n / 10) (by omega) front
        omega

/-- A number of several digits does not start with a zero. -/
theorem digits_ne_zero_cons_cons (n : Nat) (c : Char) (rest : List Char)
    : Nat.toDigits 10 n ≠ '0' :: c :: rest := by
  intro digits
  obtain rfl : n = 0 := eq_zero_of_head?_digits (by rw [digits]; rfl)
  exact absurd digits (by simp [Nat.toDigits_of_lt_base])

/-- The text is a number in decimal digits that denote it, with neither a sign in front of them nor
a zero that could be left out.
-/
structure IsDecimal (text : String) (n : Nat) : Prop where
  nonempty : text.toList ≠ []
  digits : ∀ c ∈ text.toList, c.isDigit = true
  value : text.toList.foldl (fun value c => value * 10 + (c.toNat - '0'.toNat)) 0 = n
  shortest : text.toList.head? = some '0' → text = "0"

/-- Numbers are printed in decimal. -/
theorem isDecimal_toString (n : Nat) : IsDecimal (toString n) n := by
  have printed : (toString n).toList = Nat.toDigits 10 n := by
    rw [Nat.toString_eq_repr, Nat.toList_repr]
  constructor
  case nonempty => exact printed ▸ digits_ne_nil n
  case digits => exact printed ▸ fun c => isDigit_of_mem_digits
  case value => exact printed ▸ foldl_digits (fun _ _ _ => rfl) n
  case shortest =>
    intro zero
    obtain rfl : n = 0 := eq_zero_of_head?_digits (printed ▸ zero)
    rfl

end LogIntake.Decimal
