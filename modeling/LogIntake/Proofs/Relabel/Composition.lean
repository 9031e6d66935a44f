import LogIntake.Proofs.Relabel.Compilation

/-! Lists of rules put together. A list compiles exactly if each of its rules compiles by itself,
and the compiled list applies its rules one after the other, so compiling and applying both follow
the way in which a list was put together. The error of a list is that of the first rule that does
not compile.
-/

namespace LogIntake.Relabel

-----------------------------------------------------------------------------------------
-- Rules at different positions
-----------------------------------------------------------------------------------------

namespace RuleError

/-- The position of the rule that the error is about. -/
def index : RuleError → Nat
  | .invalidRegex index _ _ => index
  | .invalidRule index _ _ => index

/-- The error of the same rule at another position. -/
def movedTo (index : Nat) : RuleError → RuleError
  | .invalidRegex _ pattern cause => .invalidRegex index pattern cause
  | .invalidRule _ action cause => .invalidRule index action cause

@[simp]
theorem index_movedTo (index : Nat) (error : RuleError) : (error.movedTo index).index = index := by
  cases error <;> rfl

end RuleError

/-- A rule compiles alike at all positions, but for the position in its error. -/
theorem CompiledRule.compile_movedTo (index other : Nat) (rule : Rule)
    : CompiledRule.compile index rule
      = (CompiledRule.compile other rule).mapError (RuleError.movedTo index) := by
  unfold CompiledRule.compile
  cases rule.fault? with
  | some cause => rfl
  | none => cases Regex.compile (anchored rule.regex) <;> rfl

/-- The rule compiles by itself. -/
def Rule.Compiles (rule : Rule) : Prop :=
  ∃ compiled, Rules.compile [rule] = .ok compiled

namespace Rules

/-- A list of one rule compiles like that rule. -/
theorem compile_singleton (rule : Rule)
    : Rules.compile [rule] = (CompiledRule.compile 0 rule).map fun compiled => [compiled] := by
  rw [compile, compileFrom]
  cases CompiledRule.compile 0 rule <;> rfl

theorem compiles_iff (index : Nat) {rule : Rule}
    : rule.Compiles ↔ ∃ compiled, CompiledRule.compile index rule = .ok compiled := by
  rw [Rule.Compiles, compile_singleton, CompiledRule.compile_movedTo index 0]
  simp only [mapError_eq_ok_iff]
  cases CompiledRule.compile 0 rule <;> simp [Except.map]

-----------------------------------------------------------------------------------------
-- Compiling a list
-----------------------------------------------------------------------------------------

/-- The rules of the second list stand behind those of the first, by induction on the first. -/
theorem compileFrom_append (index : Nat) (first second : List Rule)
    : compileFrom index (first ++ second)
      = do
          let before ← compileFrom index first
          let after ← compileFrom (index + first.length) second
          return before ++ after := by
  induction first generalizing index with
  | nil => exact (bind_pure _).symm
  | cons rule rest ih =>
      simp only [List.cons_append, compileFrom, ih, List.length_cons, bind_assoc, pure_bind,
        Nat.add_assoc, Nat.add_comm 1]

/-- Where a list begins makes no difference to the rules that it compiles to. -/
theorem compileFrom_eq_ok_iff (index other : Nat) {rules : List Rule} {compiled : Rules}
    : compileFrom index rules = .ok compiled ↔ compileFrom other rules = .ok compiled := by
  induction rules generalizing index other compiled with
  | nil => rfl
  | cons rule rest ih =>
      rw [compileFrom, compileFrom, CompiledRule.compile_movedTo index other]
      simp only [bind_eq_ok_iff, mapError_eq_ok_iff, ih (index + 1) (other + 1)]

/-- Two lists put together compile to the rules of the first and those of the second. -/
theorem compile_append_eq_ok_iff {first second : List Rule} {both : Rules}
    : Rules.compile (first ++ second) = .ok both
      ↔ ∃ before after,
          Rules.compile first = .ok before
          ∧ Rules.compile second = .ok after
          ∧ both = before ++ after := by
  simp only [compile, compileFrom_append, bind_eq_ok_iff,
    compileFrom_eq_ok_iff (0 + first.length) 0]
  constructor
  · rintro ⟨before, compiledFirst, after, compiledSecond, returned⟩
    exact ⟨before, after, compiledFirst, compiledSecond, (Except.ok.inj returned).symm⟩
  · rintro ⟨before, after, compiledFirst, compiledSecond, rfl⟩
    exact ⟨before, compiledFirst, after, compiledSecond, rfl⟩

/-- A list compiles exactly if each of its rules does, wherever the list begins. -/
theorem compileFrom_isOk_iff (index : Nat) {rules : List Rule}
    : (∃ compiled, compileFrom index rules = .ok compiled) ↔ ∀ rule ∈ rules, rule.Compiles := by
  induction rules generalizing index with
  | nil => simp [compileFrom]
  | cons rule rest ih =>
      rw [List.forall_mem_cons, ← ih (index + 1), compiles_iff index, compileFrom]
      simp only [bind_eq_ok_iff]
      constructor
      · rintro ⟨_, compiled, head, others, tail, _⟩
        exact ⟨⟨compiled, head⟩, ⟨others, tail⟩⟩
      · rintro ⟨⟨compiled, head⟩, ⟨others, tail⟩⟩
        exact ⟨_, compiled, head, others, tail, rfl⟩

/-- The error of a list is that of its first rule that does not compile, by induction on the
list.
-/
theorem compileFrom_eq_error {index : Nat} {rules : List Rule} {fault : RuleError}
    (failed : compileFrom index rules = .error fault)
    : ∃ before rule after,
        rules = before ++ rule :: after
        ∧ (∀ earlier ∈ before, earlier.Compiles)
        ∧ CompiledRule.compile (index + before.length) rule = .error fault := by
  induction rules generalizing index with
  | nil => cases failed
  | cons rule rest ih =>
      rw [compileFrom] at failed
      cases head : CompiledRule.compile index rule with
      | error own =>
          rw [head] at failed
          cases failed
          exact ⟨[], rule, rest, rfl, by simp, head⟩
      | ok compiled =>
          rw [head] at failed
          cases tail : compileFrom (index + 1) rest with
          | ok others =>
              simp only [tail] at failed
              cases failed
          | error later =>
              simp only [tail] at failed
              cases failed
              obtain ⟨before, offender, after, split, compile, fails⟩ := ih tail
              refine ⟨rule :: before, offender, after, congrArg (rule :: ·) split, ?_, ?_⟩
              · exact List.forall_mem_cons.mpr ⟨(compiles_iff index).mpr ⟨compiled, head⟩, compile⟩
              · rwa [List.length_cons, Nat.add_comm before.length, ← Nat.add_assoc]

-----------------------------------------------------------------------------------------
-- Applying a list
-----------------------------------------------------------------------------------------

@[simp]
theorem apply_nil (labels : LabelSet) : Rules.apply [] labels = some labels :=
  rfl

/-- The rules of the second list work on what those of the first have kept. -/
theorem apply_append (first second : Rules) (labels : LabelSet)
    : Rules.apply (first ++ second) labels = (first.apply labels).bind second.apply :=
  List.foldlM_append

/-- Two lists of rules put together compile exactly if both compile, and then relabel like the
first list followed, unless it drops the record, by the second; no rules at all leave every set as
it is. If they do not compile together, the error is that of the first rule that does not compile
by itself, with its position in the whole.
-/
theorem compile_append (first second : List Rule)
    : ((∃ compiled, Rules.compile (first ++ second) = .ok compiled)
        ↔ (∃ compiled, Rules.compile first = .ok compiled)
          ∧ ∃ compiled, Rules.compile second = .ok compiled)
      ∧ (∀ before after,
          Rules.compile first = .ok before
          → Rules.compile second = .ok after
          → ∃ both,
              Rules.compile (first ++ second) = .ok both
              ∧ ∀ labels, both.apply labels = (before.apply labels).bind after.apply)
      ∧ (∃ none, Rules.compile [] = .ok none ∧ ∀ labels, none.apply labels = some labels)
      ∧ (∀ fault,
          Rules.compile (first ++ second) = .error fault
          → ∃ rule own,
              (first ++ second)[fault.index]? = some rule
              ∧ Rules.compile [rule] = .error own
              ∧ fault = own.movedTo fault.index
              ∧ ∀ position earlier,
                  position < fault.index
                  → (first ++ second)[position]? = some earlier
                  → earlier.Compiles) := by
  refine ⟨?_, ?_, ⟨[], rfl, apply_nil⟩, ?_⟩
  · simp only [compile, compileFrom_isOk_iff, List.mem_append, or_imp, forall_and]
  · intro before after compiledFirst compiledSecond
    have behind := (compileFrom_eq_ok_iff (0 + first.length) 0).mpr compiledSecond
    have together : Rules.compile (first ++ second) = .ok (before ++ after) := by
      rw [compile, compileFrom_append]
      exact bind_eq_ok_iff.mpr ⟨before, compiledFirst, bind_eq_ok_iff.mpr ⟨after, behind, rfl⟩⟩
    exact ⟨before ++ after, together, apply_append before after⟩
  · intro fault failed
    obtain ⟨before, rule, after, split, compile, fails⟩ := compileFrom_eq_error failed
    rw [Nat.zero_add, CompiledRule.compile_movedTo before.length 0, mapError_eq_error_iff] at fails
    obtain ⟨own, alone, rfl⟩ := fails
    rw [RuleError.index_movedTo, split]
    refine ⟨rule, own, by simp, ?_, rfl, ?_⟩
    · rw [compile_singleton, alone]
      rfl
    · intro position earlier inside found
      rw [List.getElem?_append_left inside] at found
      exact compile earlier (List.mem_of_getElem? found)

/-- A test followed by a copy works like the two in turn, and behind them a rule with a malformed
target is the one that the error points to.
-/
theorem compile_append_third_fails
    : let test : Rule :=
        { Rule.default with sourceLabels := ["v"], regex := "x.*", action := .keep }
      let copy : Rule := { Rule.default with sourceLabels := ["v"], targetLabel := "w" }
      let malformed : Rule := { Rule.default with targetLabel := "a-b", action := .lowercase }
      (∃ before after both,
        Rules.compile [test] = .ok before
        ∧ Rules.compile [copy] = .ok after
        ∧ Rules.compile ([test] ++ [copy]) = .ok both
        ∧ ∀ labels, both.apply labels = (before.apply labels).bind after.apply)
      ∧ ∃ fault rule own,
          Rules.compile ([test] ++ [copy, malformed]) = .error fault
          ∧ fault.index = 2
          ∧ ([test] ++ [copy, malformed])[fault.index]? = some rule
          ∧ Rules.compile [rule] = .error own
          ∧ fault = own.movedTo fault.index := by
  intro test copy malformed
  constructor
  · have accepted
        : (Rules.compile [test]).toOption.isSome = true
          ∧ (Rules.compile [copy]).toOption.isSome = true := by
      decide +kernel
    cases testCompiles : Rules.compile [test] with
    | error fault => simp [testCompiles, Except.toOption] at accepted
    | ok before =>
        cases copyCompiles : Rules.compile [copy] with
        | error fault => simp [copyCompiles, Except.toOption] at accepted
        | ok after =>
            obtain ⟨both, together, composed⟩ :=
              (compile_append [test] [copy]).2.1 before after testCompiles copyCompiles
            exact ⟨before, after, both, rfl, rfl, together, composed⟩
  · have outcome
        : (Rules.compile ([test] ++ [copy, malformed])).map (fun _ => ())
          = .error (.invalidRule 2 .lowercase .invalidTarget) := by
      decide +kernel
    cases compilation : Rules.compile ([test] ++ [copy, malformed]) with
    | ok rules =>
        rw [compilation] at outcome
        cases outcome
    | error fault =>
        rw [compilation, Except.map, Except.error.injEq] at outcome
        obtain ⟨rule, own, found, alone, moved, _⟩ :=
          (compile_append [test] [copy, malformed]).2.2.2 fault compilation
        exact ⟨fault, rule, own, rfl, congrArg RuleError.index outcome, found, alone, moved⟩

end Rules

end LogIntake.Relabel
