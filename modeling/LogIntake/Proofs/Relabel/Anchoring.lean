import LogIntake.Proofs.Regex.Anchoring
import LogIntake.Proofs.Regex.Enclosing
import LogIntake.Proofs.Relabel.Compilation

/-! The anchors around the pattern of a rule. A rule pastes its text between the anchors, and
they stand around all of it whenever the text is a pattern by itself. A text that closes the
group around it can leave an alternative outside of the anchors.
-/

namespace LogIntake.Relabel

open LogIntake.Regex

/-- The anchored text reads as one row that starts at the start of the text and ends at its end.
-/
def Enclosed (pattern : String) : Prop :=
  ∃ reading inner flags,
    Regex.parse (anchored pattern).toList = .ok reading
    ∧ reading.pattern.toExpr .initial = .ok (Expr.anchored inner, flags)

theorem toList_anchored (pattern : String)
    : (anchored pattern).toList = opening ++ (pattern.toList ++ closing) := by
  simp [anchored, String.toList_append, opening, closing]

/-- Between the anchors, a pattern becomes an expression between the ends of the text. Witness:
the options that the pattern sets hold to the end of its group only.
-/
theorem anchored_of_toExpr {sub : Pattern} {expr : Expr} {after : Flags}
    (made
      : (Pattern.sequence
            [.assertion .lineStart, .group (.options ⟨[], []⟩) sub, .assertion .lineEnd]).toExpr
          .initial
        = .ok (expr, after))
    : ∃ inner, expr = Expr.anchored [inner] := by
  cases grouped : sub.toExpr (Flags.initial.apply ⟨[], []⟩) with
  | error fault =>
      simp [Pattern.toExpr, Pattern.toExprs, grouped, bind, Except.bind] at made
  | ok inner =>
      have expected : expr = Expr.anchored [inner.1] := by
        simp only [Pattern.toExpr, Pattern.toExprs, grouped, bind, Except.bind, pure, Except.pure,
          Except.ok.injEq, Prod.mk.injEq] at made
        exact made.1.symm
      exact ⟨inner.1, expected⟩

/-- The anchors stand around a text that is a pattern by itself, and where they stand around the
text, every match of the rule's pattern in a value spans all of the value, wherever the search
starts. Witness: the pattern in the group neither takes in an anchor nor leaves it out, and a path
through the program notes the ends of the match next to the anchors only.
-/
theorem span_of_enclosed {index : Nat} {rule : Rule} {compiled : CompiledRule}
    (accepted : CompiledRule.compile index rule = .ok compiled)
    : ((∃ alone, Regex.parse rule.regex.toList = .ok alone) → Enclosed rule.regex)
      ∧ (Enclosed rule.regex →
          ∀ (value : String) (start : Nat) (found : Match),
            start ≤ value.length →
            compiled.regex.findFrom value.toList start = some found →
            found.span? 0 = some (0, value.length)) := by
  obtain ⟨_, compiles, _⟩ := CompiledRule.compile_eq_ok_iff.mp accepted
  obtain ⟨reading, expr, flags, read, made, program⟩ := program_of_compile compiles
  constructor
  · rintro ⟨alone, readAlone⟩
    have shape := read
    rw [toList_anchored] at shape
    have enclosed := parse_enclosed readAlone shape
    have anchors := made
    rw [enclosed] at anchors
    obtain ⟨inner, rfl⟩ := anchored_of_toExpr anchors
    exact ⟨reading, [inner], flags, read, made⟩
  · rintro ⟨reading', inner, flags', read', made'⟩ value start found inside finds
    cases read.symm.trans read'
    cases made.symm.trans made'
    have numbered := (parse_numbered read).toExpr made
    have each : ∀ expr ∈ inner, expr.Numbered := by
      intro expr member
      cases numbered with
      | sequence each => exact each expr (by simp [member])
    have spans := span_of_anchored each program (String.length_toList ▸ inside) finds
    rwa [String.length_toList] at spans

/-- Two alternatives are a pattern by themselves, and the second one matches all of its text. -/
theorem span_of_enclosed_alternatives
    : let rule := { Rule.default with regex := "a|b", action := .drop }
      ∃ compiled found,
        CompiledRule.compile 0 rule = .ok compiled
        ∧ compiled.regex.findFrom "b".toList 0 = some found
        ∧ found.span? 0 = some (0, 1) := by
  intro rule
  have finds
      : (CompiledRule.compile 0 rule).toOption.any
          (fun compiled => (compiled.regex.findFrom "b".toList 0).isSome)
        = true := by
    decide +kernel
  have reads : (Regex.parse rule.regex.toList).toOption.isSome = true := by decide +kernel
  cases compiles : CompiledRule.compile 0 rule with
  | error fault => simp [compiles, Except.toOption] at finds
  | ok compiled =>
      rw [compiles, Except.toOption, Option.any_some, Option.isSome_iff_exists] at finds
      obtain ⟨found, finds⟩ := finds
      cases read : Regex.parse rule.regex.toList with
      | error fault => simp [read, Except.toOption] at reads
      | ok alone =>
          obtain ⟨encloses, spans⟩ := span_of_enclosed compiles
          have spanned := spans (encloses ⟨alone, read⟩) "b" 0 found (Nat.zero_le _) finds
          exact ⟨compiled, found, rfl, finds, spanned⟩

/-- A text that closes the group around it leaves its second alternative outside, and then a
rule matches a value of which only the first character fits.
-/
theorem unenclosed_alternative_spans_part
    : ¬ ∀ (index : Nat) (rule : Rule) (compiled : CompiledRule),
          CompiledRule.compile index rule = .ok compiled →
          ∀ (value : String) (start : Nat) (found : Match),
            start ≤ value.length →
            compiled.regex.findFrom value.toList start = some found →
            found.span? 0 = some (0, value.length) := by
  intro spans
  let rule := { Rule.default with regex := "a)|(?:b", action := .drop }
  have part
      : (CompiledRule.compile 0 rule).toOption.any
          (fun compiled =>
            (compiled.regex.findFrom "ax".toList 0).any fun found =>
              found.span? 0 ≠ some (0, "ax".length))
        = true := by
    decide +kernel
  cases compiles : CompiledRule.compile 0 rule with
  | error fault => simp [compiles, Except.toOption] at part
  | ok compiled =>
      rw [compiles, Except.toOption, Option.any_some, Option.any_eq_true] at part
      obtain ⟨found, finds, differs⟩ := part
      have whole := spans 0 rule compiled compiles "ax" 0 found (Nat.zero_le _) finds
      simp [whole] at differs

end LogIntake.Relabel
