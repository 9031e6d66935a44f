import LogIntake.Proofs.Relabel.Compilation
import LogIntake.Proofs.Relabel.Frames
import LogIntake.Proofs.Relabel.TemplatePattern

/-! What templates of label names expand to. The scan for parts takes the longest name behind a
dollar sign, so it need not find the items that the grammar has put together, but each of its
parts is made of characters of names all the same. Nothing else of a template is left in an
expansion: it fails to be a label name only for what was captured, for being empty, or for a digit
in front.
-/

namespace LogIntake

open Label

namespace Relabel

/-- A run that no dollar sign is in takes characters of names only, and leaves what may stand
behind an item.
-/
theorem TemplateRest.run {chars : List Char} (template : TemplateRest chars) (p : Char → Bool)
    (stops : p '$' = false)
    : (∀ c ∈ chars.takeWhile p, ContinuesName c)
      ∧ TemplateRest (chars.drop (chars.takeWhile p).length) := by
  induction template with
  | nil => exact ⟨nofun, .nil⟩
  | @char c rest continues after ih =>
      cases passes : p c with
      | true =>
          rw [List.takeWhile_cons_of_pos passes]
          exact ⟨List.forall_mem_cons.mpr ⟨continues, ih.1⟩, ih.2⟩
      | false =>
          rw [List.takeWhile_cons_of_neg (by simp [passes])]
          exact ⟨nofun, .char continues after⟩
  | reference continues after =>
      rw [List.takeWhile_cons_of_neg (by simp [stops])]
      exact ⟨nofun, .reference continues after⟩
  | braced word after =>
      rw [List.takeWhile_cons_of_neg (by simp [stops])]
      exact ⟨nofun, .braced word after⟩

end Relabel

namespace Regex

open Relabel

/-- A part of a template of label names: characters of names, or a reference that has a name. -/
def TemplatePart.WellFormed : TemplatePart → Prop
  | .text chars => ∀ c ∈ chars, ContinuesName c
  | .group name => IsWord name

/-- The scan finds a reference behind each dollar sign of a template. -/
theorem takeReference_of_template {chars : List Char} (template : TemplateRest ('$' :: chars))
    : ∃ name after,
        takeReference chars = (.group name, after) ∧ IsWord name ∧ TemplateRest after := by
  cases template with
  | char continues => exact absurd continues not_continuesName_dollar
  | @reference c rest continues after =>
      -- The scan takes the longest name, of which the grammar needs the first character only.
      have passes : isNameChar c = true := isNameChar_iff.mpr continues
      have left := after.run isNameChar (by decide)
      have word : IsWord ((c :: rest).takeWhile isNameChar) :=
        ⟨by simp [passes], left.1⟩
      refine ⟨_, _, ?_, word, left.2⟩
      unfold takeReference
      split
      case h_1 same => exact absurd (List.cons.inj same).1 (continues.ne not_continuesName_dollar)
      case h_2 same => exact absurd (List.cons.inj same).1 (continues.ne not_continuesName_opening)
      case h_3 => simp [passes]
  | @braced name after word afterTemplate =>
      obtain ⟨nonempty, continues⟩ := word
      have inside : (name ++ '\x7d' :: after).takeWhile (· ≠ '\x7d') = name := by
        rw [List.takeWhile_append_of_pos]
        · simp
        · intro c member
          exact decide_eq_true ((continues c member).ne not_continuesName_closing)
      refine ⟨name, after, ?_, ⟨nonempty, continues⟩, afterTemplate⟩
      simp only [takeReference, inside, List.drop_left]

/-- Every part that the scan takes from a template is made of characters of names, by induction on
the bound of the scan.
-/
theorem takeParts_wellFormed {fuel : Nat} {chars : List Char} (template : TemplateRest chars)
    : ∀ part ∈ takeParts fuel chars, part.WellFormed := by
  induction fuel generalizing chars with
  | zero => exact nofun
  | succ fuel ih =>
      cases chars with
      | nil => exact nofun
      | cons c rest =>
          rw [takeParts]
          by_cases dollar : c = '$'
          · subst dollar
            obtain ⟨name, after, taken, word, afterTemplate⟩ := takeReference_of_template template
            rw [if_pos rfl, taken]
            exact List.forall_mem_cons.mpr ⟨word, ih afterTemplate⟩
          · rw [if_neg dollar]
            obtain ⟨continues, left⟩ := template.run (· ≠ '$') (by decide)
            exact List.forall_mem_cons.mpr ⟨continues, ih left⟩

/-- A character of an expansion is one of names, or a group that the template refers to has it. -/
theorem mem_expandTemplate {chars : List Char} (template : TemplateRest chars)
    (group : List Char → List Char)
    : ∀ c ∈ expandTemplate group chars,
        ContinuesName c ∨ ∃ name, .group name ∈ templateParts chars ∧ c ∈ group name := by
  intro c member
  obtain ⟨part, among, inPart⟩ := List.mem_flatMap.mp member
  cases part with
  | text chars => exact .inl (takeParts_wellFormed template _ among c inPart)
  | group name => exact .inr ⟨name, among, inPart⟩

/-- What a reference stands for was captured by some group of the match. -/
theorem Match.exists_group_of_mem_reference {found : Match} {names : List (String × Nat)}
    {name : List Char} {c : Char} (member : c ∈ found.reference names name)
    : ∃ group, c ∈ found.group group := by
  unfold Match.reference at member
  split at member
  case h_1 group _ => exact ⟨group, member⟩
  case h_2 =>
    cases number : names.lookup (String.ofList name) with
    | none =>
        rw [number] at member
        cases member
    | some group =>
        rw [number] at member
        exact ⟨group, member⟩

/-- Where only characters of names were captured, a template expands to characters of names. -/
theorem continues_of_mem_expand {regex : LogIntake.Regex} {found : Match} {chars : List Char}
    (template : TemplateRest chars) (captured : ∀ group, ∀ c ∈ found.group group, ContinuesName c)
    : ∀ c ∈ regex.expand found chars, ContinuesName c := by
  intro c member
  rcases mem_expandTemplate template _ c member with continues | referred
  · exact continues
  · obtain ⟨name, _, inGroup⟩ := referred
    obtain ⟨group, inCapture⟩ := Match.exists_group_of_mem_reference inGroup
    exact captured group c inCapture

end Regex

namespace Relabel

open Regex

/-- The target of a replacement without faults is a template. -/
theorem Rule.isTemplate_of_fault?_eq_none {rule : Rule} (action : rule.action = .replace)
    (sound : rule.fault? = none)
    : isTemplate rule.targetLabel = true := by
  have target := targetFault?_eq_none sound
  by_cases templated : rule.isTemplated = true
  · simpa [targetFault?, action, templated] using target
  · have plain : '$' ∉ rule.targetLabel.toList := by simpa [isTemplated] using templated
    rw [isTemplate_eq_isValidName plain]
    simpa [targetFault?, action, templated] using target

namespace CompiledRule

/-- A group that the template refers to has captured a character that names do not have. -/
def CapturesOther (compiled : CompiledRule) (found : Match) (template : String) : Prop :=
  ∃ name,
    .group name ∈ templateParts template.toList
    ∧ ∃ c ∈ found.reference compiled.regex.names name, ¬ContinuesName c

/-- A template expands to a label name unless something else was captured, nothing is left, or a
digit comes in front.
-/
theorem isLabelName_expansion {compiled : CompiledRule} {found : Match} {template : String}
    (isTemplate : IsLabelTemplate template) (captured : ¬compiled.CapturesOther found template)
    (nonempty : compiled.expansion found template ≠ "")
    (head : ∀ c ∈ (compiled.expansion found template).toList.head?, ¬IsDigit c)
    : IsLabelName (compiled.expansion found template) := by
  have continues : ∀ c ∈ (compiled.expansion found template).toList, ContinuesName c := by
    intro c member
    rw [expansion, String.toList_ofList] at member
    rcases mem_expandTemplate (isLabelTemplate_iff.mp isTemplate).2.items _ c member with
      continues | referred
    · exact continues
    · obtain ⟨name, among, inGroup⟩ := referred
      exact Decidable.by_contra fun other => captured ⟨name, among, c, inGroup, other⟩
  have chars : (compiled.expansion found template).toList ≠ [] := by simpa using nonempty
  obtain ⟨first, rest, same⟩ := List.exists_cons_of_ne_nil chars
  rw [same] at continues head
  obtain ⟨firstContinues, others⟩ := List.forall_mem_cons.mp continues
  exact ⟨first, rest, same, beginsName_iff.mpr ⟨firstContinues, head first rfl⟩, others⟩

/-- A replacement whose pattern matches writes its label, or leaves the set as it is for one of
three reasons.
-/
theorem apply_replace_of_find {index : Nat} {rule : Rule} {compiled : CompiledRule}
    (action : rule.action = .replace) (accepted : CompiledRule.compile index rule = .ok compiled)
    {labels : LabelSet} {found : Match}
    (finds : compiled.regex.find (rule.sourceValue labels).toList = some found)
    : ∃ kept,
        compiled.apply labels = some kept
        ∧ (labels.WrittenAt (compiled.expansion found rule.targetLabel)
              (compiled.expansion found rule.replacement) kept
          ∨ kept = labels
            ∧ (compiled.CapturesOther found rule.targetLabel
              ∨ compiled.expansion found rule.targetLabel = ""
              ∨ ∃ c ∈ (compiled.expansion found rule.targetLabel).toList.head?, IsDigit c)) := by
  obtain ⟨sound, _, rfl⟩ := compile_eq_ok_iff.mp accepted
  have template := isTemplate_iff.mp (Rule.isTemplate_of_fault?_eq_none action sound)
  have frame := replaceFrame_replace compiled labels
  rw [ReplaceFrame, finds] at frame
  refine ⟨compiled.replace labels (compiled.rule.sourceValue labels), by simp [apply, action], ?_⟩
  dsimp only at frame
  split at frame
  case isTrue => exact .inl frame
  case isFalse invalid =>
    refine .inr ⟨frame, ?_⟩
    by_contra none
    simp only [not_or, not_exists, not_and] at none
    exact invalid (isLabelName_expansion template none.1 none.2.1 none.2.2)

end CompiledRule

/-- The check for templates, the pattern of templates and the grammar agree on every text, and on
texts without references the check is that for label names. A template has parts of characters of
names only, so what it expands to has them only if what was captured has. A replacement whose
pattern matches fails to write its label only for other captured characters, an empty expansion,
or a digit in front.
-/
theorem templates_agree (text : String)
    : (isTemplate text = true ↔ IsLabelTemplate text)
      ∧ (∃ regex,
          Regex.compile templatePattern = .ok regex
          ∧ (regex.isMatch text.toList = true ↔ IsLabelTemplate text))
      ∧ ('$' ∉ text.toList → isTemplate text = isValidName text)
      ∧ (isTemplate text = true
        → (∀ part ∈ templateParts text.toList, part.WellFormed)
          ∧ ∀ (regex : LogIntake.Regex) (found : Match),
              (∀ group, ∀ c ∈ found.group group, ContinuesName c)
              → ∀ c ∈ regex.expand found text.toList, ContinuesName c)
      ∧ ∀ index rule compiled,
          rule.action = .replace
          → rule.targetLabel = text
          → CompiledRule.compile index rule = .ok compiled
          → ∀ labels found,
              compiled.regex.find (rule.sourceValue labels).toList = some found
              → ∃ kept,
                  compiled.apply labels = some kept
                  ∧ (labels.WrittenAt (compiled.expansion found text)
                        (compiled.expansion found rule.replacement) kept
                    ∨ kept = labels
                      ∧ (compiled.CapturesOther found text
                        ∨ compiled.expansion found text = ""
                        ∨ ∃ c ∈ (compiled.expansion found text).toList.head?, IsDigit c)) := by
  have pattern := isMatch_templatePattern_iff compile_templatePattern text
  refine ⟨isTemplate_iff, ⟨_, compile_templatePattern, pattern⟩, isTemplate_eq_isValidName, ?_, ?_⟩
  · intro template
    have items := (isLabelTemplate_iff.mp (isTemplate_iff.mp template)).2.items
    exact ⟨takeParts_wellFormed items, fun regex found => continues_of_mem_expand items⟩
  · intro index rule compiled action target accepted labels found finds
    subst target
    exact CompiledRule.apply_replace_of_find action accepted finds

/-- A target with braces comes out as a label name; a name without references is a template too. -/
theorem templates_agree_braced_target
    : let rule : Rule :=
        { Rule.default with sourceLabels := ["zone"], targetLabel := "$\x7b1\x7d_x" }
      let labels := LabelSet.ofList [("zone", "b")]
      isTemplate "zone" = isValidName "zone"
      ∧ (∀ part ∈ templateParts rule.targetLabel.toList, part.WellFormed)
      ∧ ∃ compiled found kept,
          CompiledRule.compile 0 rule = .ok compiled
          ∧ compiled.regex.find (rule.sourceValue labels).toList = some found
          ∧ compiled.apply labels = some kept
          ∧ kept ≠ labels
          ∧ labels.WrittenAt (compiled.expansion found rule.targetLabel)
              (compiled.expansion found rule.replacement) kept := by
  intro rule labels
  obtain ⟨_, _, plain, _, _⟩ := templates_agree "zone"
  obtain ⟨_, _, _, expands, replaces⟩ := templates_agree rule.targetLabel
  have evaluated
      : (CompiledRule.compile 0 rule).toOption.any
          (fun compiled => (compiled.regex.find (rule.sourceValue labels).toList).isSome
            && (compiled.apply labels).any fun kept => kept.toList ≠ labels.toList)
        = true := by
    decide +kernel
  obtain ⟨compiled, compiles, parts⟩ := any_toOption_iff.mp evaluated
  obtain ⟨finds, applies⟩ := (Bool.and_eq_true _ _).mp parts
  obtain ⟨found, finds⟩ := Option.isSome_iff_exists.mp finds
  obtain ⟨kept, applied, effect⟩ := replaces 0 rule compiled rfl rfl compiles labels found finds
  rw [applied, Option.any_some, decide_eq_true_eq] at applies
  have changed : kept ≠ labels := fun same => applies (congrArg LabelSet.toList same)
  exact ⟨plain (by decide), (expands (by decide)).1, compiled, found, kept, compiles, finds,
    applied, changed, effect.resolve_right fun skipped => changed skipped.1⟩

end Relabel

end LogIntake
