import LogIntake.Regex.Compiled

/-! What templates expand to. A template is text and references in turn, and its text is copied as
it stands.
-/

namespace LogIntake.Regex

/-- A run of text goes at least as far as the first reference. -/
theorem takeWhile_plain {text : List Char} (plain : '$' ∉ text) (rest : List Char)
    : (text ++ rest).takeWhile (· ≠ '$') = text ++ rest.takeWhile (· ≠ '$') := by
  refine List.takeWhile_append_of_pos ?_
  intro c member
  exact decide_eq_true fun equal => plain (equal ▸ member)

/-- The text in front of the first reference stands at the front of every expansion. -/
theorem prefix_expandTemplate (group : List Char → List Char) {text : List Char}
    (plain : '$' ∉ text) (rest : List Char)
    : text <+: expandTemplate group (text ++ rest) := by
  cases text with
  | nil => exact List.nil_prefix
  | cons c text =>
      have isText : c ≠ '$' := fun equal => plain (equal ▸ List.mem_cons_self)
      have run := takeWhile_plain plain rest
      rw [List.cons_append] at run
      rw [expandTemplate, templateParts, List.cons_append, List.length_cons, takeParts,
        if_neg isText, List.flatMap_cons, run]
      exact (List.prefix_append _ _).trans (List.prefix_append _ _)

/-- A text without references expands to itself. -/
theorem expandTemplate_plain (group : List Char → List Char) {text : List Char} (plain : '$' ∉ text)
    : expandTemplate group text = text := by
  cases text with
  | nil => rfl
  | cons c text =>
      have isText : c ≠ '$' := fun equal => plain (equal ▸ List.mem_cons_self)
      have run := takeWhile_plain plain []
      rw [List.append_nil, List.takeWhile_nil, List.append_nil] at run
      have done (fuel : Nat) : takeParts fuel [] = [] := by cases fuel <;> rfl
      rw [expandTemplate, templateParts, List.length_cons, takeParts, if_neg isText]
      simp only [run, List.drop_length, done, List.flatMap_cons, List.flatMap_nil, List.append_nil]

end LogIntake.Regex
