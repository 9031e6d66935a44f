import LogIntake.Digest.Md5
import Mathlib.Algebra.BigOperators.Field
import Mathlib.Algebra.Order.Floor.Semiring
import Mathlib.Analysis.Complex.Basic
import Mathlib.Analysis.Complex.Exponential
import Mathlib.Analysis.Complex.Trigonometric
import Mathlib.Data.Nat.Cast.Field
import Mathlib.NumberTheory.Zsqrtd.GaussianInt

/-! The constants of the steps are the leading bits of sines. Points of the unit circle at whole
angles are powers of one point, so the powers of an approximation to it tell them all. The
approximation is a partial sum of the exponential series. Its powers are Gaussian integers over
powers of a factorial, and comparing the table with them takes whole numbers only.
-/

namespace LogIntake.Md5

open Complex
open scoped Nat

/-- The exponential series at the imaginary unit up to its twentieth power, with the factorial of
twenty for a common denominator.
-/
def unitSeries : GaussianInt :=
  ∑ m ∈ Finset.range 21, (20 ! / m ! : ℕ) * ⟨0, 1⟩ ^ m

theorem unitSeries_div
    : (unitSeries : ℂ) / (20 ! : ℕ) = ∑ m ∈ Finset.range 21, I ^ m / (m ! : ℂ) := by
  have unit : GaussianInt.toComplex ⟨0, 1⟩ = I := by simp [GaussianInt.toComplex_def]
  have nonzero (m : ℕ) : (m ! : ℂ) ≠ 0 := Nat.cast_ne_zero.mpr m.factorial_ne_zero
  rw [unitSeries, map_sum, Finset.sum_div]
  apply Finset.sum_congr rfl
  intro m member
  have divides : m ! ∣ 20 ! :=
    Nat.factorial_dvd_factorial (Nat.lt_succ_iff.mp (Finset.mem_range.mp member))
  rw [map_mul, map_pow, map_natCast, unit, Nat.cast_div divides (nonzero m)]
  field_simp [nonzero m, nonzero 20]

theorem norm_exp_I : ‖exp I‖ = 1 := by
  simpa using norm_exp_ofReal_mul_I 1

theorem norm_exp_I_sub_unitSeries_le : ‖exp I - unitSeries / (20 ! : ℕ)‖ ≤ 1 / 2 ^ 64 := by
  have bound := exp_bound norm_I.le (show 0 < 21 by decide)
  rw [← unitSeries_div, norm_I, one_pow, one_mul] at bound
  refine bound.trans ?_
  norm_num [Nat.factorial]

/-- The approximation lies within the unit circle, so its powers do not run away. -/
theorem norm_unitSeries_div_le_one : ‖(unitSeries : ℂ) / (20 ! : ℕ)‖ ≤ 1 := by
  have within : unitSeries.norm ≤ (20 ! : ℕ) ^ 2 := by decide +kernel
  have squares : ‖(unitSeries : ℂ)‖ ^ 2 ≤ (20 ! : ℕ) ^ 2 := by
    rw [← normSq_eq_norm_sq, ← GaussianInt.intCast_real_norm]
    exact_mod_cast within
  have bound := (pow_le_pow_iff_left₀ (norm_nonneg _) (Nat.cast_nonneg _) two_ne_zero).mp squares
  rw [norm_div, norm_natCast]
  exact div_le_one_of_le₀ bound (Nat.cast_nonneg _)

/-- Powers of points within the unit circle move apart linearly, by induction on the exponent. -/
theorem norm_pow_sub_pow_le {z w : ℂ} (hz : ‖z‖ ≤ 1) (hw : ‖w‖ ≤ 1) (n : ℕ)
    : ‖z ^ n - w ^ n‖ ≤ n * ‖z - w‖ := by
  induction n with
  | zero => simp
  | succ n ih =>
      have parts : z ^ (n + 1) - w ^ (n + 1) = z ^ n * (z - w) + (z ^ n - w ^ n) * w := by ring
      calc ‖z ^ (n + 1) - w ^ (n + 1)‖
          ≤ ‖z ^ n * (z - w)‖ + ‖(z ^ n - w ^ n) * w‖ := by
            rw [parts]
            exact norm_add_le _ _
        _ = ‖z‖ ^ n * ‖z - w‖ + ‖z ^ n - w ^ n‖ * ‖w‖ := by simp only [norm_mul, norm_pow]
        _ ≤ 1 * ‖z - w‖ + (n * ‖z - w‖) * 1 := by
            gcongr
            exact pow_le_one₀ (norm_nonneg z) hz
        _ = (n + 1 : ℕ) * ‖z - w‖ := by
            push_cast
            ring

/-- The sine of a whole angle is close to the imaginary part of a power. -/
theorem abs_sin_sub_le (n : ℕ)
    : |(|Real.sin n| - (unitSeries ^ n).im.natAbs / (20 ! ^ n : ℕ))| ≤ n / 2 ^ 64 := by
  have sine : Real.sin n = (exp I ^ n).im := by
    rw [← exp_nat_mul, ← exp_ofReal_mul_I_im, ofReal_natCast]
  have power : |((unitSeries / (20 ! : ℕ) : ℂ) ^ n).im|
      = (unitSeries ^ n).im.natAbs / (20 ! ^ n : ℕ) := by
    rw [div_pow, ← map_pow, ← Nat.cast_pow, div_natCast_im, ← GaussianInt.intCast_im, abs_div,
      Nat.abs_cast, Nat.cast_natAbs, Int.cast_abs]
  calc |(|Real.sin n| - (unitSeries ^ n).im.natAbs / (20 ! ^ n : ℕ))|
      ≤ |(exp I ^ n).im - ((unitSeries / (20 ! : ℕ) : ℂ) ^ n).im| := by
        rw [sine, ← power]
        exact abs_abs_sub_abs_le _ _
    _ ≤ ‖exp I ^ n - (unitSeries / (20 ! : ℕ)) ^ n‖ := by
        rw [← sub_im]
        exact abs_im_le_norm _
    _ ≤ n * ‖exp I - unitSeries / (20 ! : ℕ)‖ :=
        norm_pow_sub_pow_le norm_exp_I.le norm_unitSeries_div_le_one n
    _ ≤ n * (1 / 2 ^ 64) := by
        gcongr
        exact norm_exp_I_sub_unitSeries_le
    _ = n / 2 ^ 64 := by ring

/-- A number close to a fraction has the whole part that comparing whole numbers tells. -/
theorem floor_eq_of_near {x : ℝ} (nonnegative : 0 ≤ x) {whole numerator denominator slack : ℕ}
    (positive : 0 < denominator) (near : |x - numerator / denominator| ≤ slack / 2 ^ 64)
    (lower : whole * denominator * 2 ^ 32 + slack * denominator ≤ numerator * 2 ^ 64)
    (upper : numerator * 2 ^ 64 + slack * denominator < (whole + 1) * denominator * 2 ^ 32)
    : ⌊2 ^ 32 * x⌋₊ = whole := by
  have divisor : (0 : ℝ) < denominator := Nat.cast_pos.mpr positive
  obtain ⟨quotient, same⟩ : ∃ quotient : ℝ, quotient * denominator = numerator :=
    ⟨numerator / denominator, div_mul_cancel₀ _ divisor.ne'⟩
  have low : (whole * 2 ^ 32 + slack : ℝ) ≤ quotient * 2 ^ 64 := by
    apply le_of_mul_le_mul_right _ divisor
    calc (whole * 2 ^ 32 + slack : ℝ) * denominator
        = whole * denominator * 2 ^ 32 + slack * denominator := by ring
      _ ≤ numerator * 2 ^ 64 := by exact_mod_cast lower
      _ = quotient * 2 ^ 64 * denominator := by rw [← same, mul_right_comm]
  have high : quotient * 2 ^ 64 + slack < ((whole + 1) * 2 ^ 32 : ℝ) := by
    apply lt_of_mul_lt_mul_right _ divisor.le
    calc (quotient * 2 ^ 64 + slack) * denominator
        = (numerator * 2 ^ 64 + slack * denominator : ℝ) := by rw [← same]; ring
      _ < (whole + 1) * denominator * 2 ^ 32 := by exact_mod_cast upper
      _ = (whole + 1) * 2 ^ 32 * denominator := by ring
  rw [← same, mul_div_cancel_right₀ _ divisor.ne', abs_le] at near
  rw [Nat.floor_eq_iff (by positivity)]
  constructor <;> linarith

/-- The powers leave room for no other constants. -/
theorem constants_between_powers
    : ∀ step < 64,
        let constant := (constants.getD step 0).toNat
        let numerator := (unitSeries ^ (step + 1)).im.natAbs
        let denominator := 20 ! ^ (step + 1)
        constant * denominator * 2 ^ 32 + (step + 1) * denominator ≤ numerator * 2 ^ 64
        ∧ numerator * 2 ^ 64 + (step + 1) * denominator
          < (constant + 1) * denominator * 2 ^ 32 := by
  decide +kernel

/-- The constant of a step is the whole part of its sine's absolute value, scaled to 32 bits. -/
theorem toNat_constant {step : Nat} (bound : step < 64)
    : (constants.getD step 0).toNat = ⌊2 ^ 32 * |Real.sin (step + 1)|⌋₊ := by
  obtain ⟨lower, upper⟩ := constants_between_powers step bound
  have near := abs_sin_sub_le (step + 1)
  have positive : 0 < 20 ! ^ (step + 1) := by positivity
  rw [← Nat.cast_add_one]
  exact (floor_eq_of_near (abs_nonneg _) positive near lower upper).symm

end LogIntake.Md5
