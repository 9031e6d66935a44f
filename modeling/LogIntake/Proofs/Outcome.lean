import Mathlib.Control.Monad.Basic

/-! Success and failure of composed computations, read backwards: what each part must have
answered for the whole to answer as it did.
-/

namespace LogIntake

variable {ε δ α β : Type}

/-- A sequence succeeds exactly if its first part does and the rest succeeds on that value. -/
theorem bind_eq_ok_iff {first : Except ε α} {next : α → Except ε β} {result : β}
    : (first >>= next) = .ok result
      ↔ ∃ value, first = .ok value ∧ next value = .ok result := by
  cases first with
  | error e => simp [bind, Except.bind]
  | ok value => simp [bind, Except.bind]

/-- A test that throws is passed exactly if it does not hold. -/
theorem throwIf_eq_ok_iff {test : Prop} [Decidable test] {fault : ε} {next : Unit → Except ε α}
    {value : α}
    : (if test then (throw fault : Except ε Unit) >>= next else next ()) = .ok value
      ↔ ¬test ∧ next () = .ok value := by
  by_cases holds : test
  · rw [if_pos holds]
    exact ⟨nofun, fun passed => absurd holds passed.1⟩
  · rw [if_neg holds]
    exact ⟨fun done => ⟨holds, done⟩, And.right⟩

/-- Renaming errors changes no success. -/
@[simp]
theorem mapError_eq_ok_iff {rename : ε → δ} {outcome : Except ε α} {value : α}
    : outcome.mapError rename = .ok value ↔ outcome = .ok value := by
  cases outcome with
  | error e => exact ⟨nofun, nofun⟩
  | ok kept =>
      have renamed : (Except.ok kept : Except ε α).mapError rename = .ok kept := rfl
      rw [renamed, Except.ok.injEq, Except.ok.injEq]

/-- A renamed error comes from an error. -/
theorem mapError_eq_error_iff {rename : ε → δ} {outcome : Except ε α} {renamed : δ}
    : outcome.mapError rename = .error renamed
      ↔ ∃ own, outcome = .error own ∧ rename own = renamed := by
  cases outcome with
  | error own => simp [Except.mapError]
  | ok value => simp [Except.mapError]

/-- A test on the value of a computation passes exactly if it succeeds with a value that passes. -/
theorem any_toOption_iff {outcome : Except ε α} {test : α → Bool}
    : outcome.toOption.any test = true ↔ ∃ value, outcome = .ok value ∧ test value = true := by
  cases outcome with
  | error e => simp [Except.toOption]
  | ok value => simp [Except.toOption]

end LogIntake
