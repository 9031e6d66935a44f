import LogIntake.Proofs.Regex.Anchoring
import LogIntake.Proofs.Regex.Completeness
import LogIntake.Proofs.Regex.Expansion
import LogIntake.Proofs.Relabel.Compilation
import LogIntake.Proofs.Relabel.Frames
import LogIntake.Proofs.Unicode.Ranges

/-! Rules that copy a value. The pattern that a rule has by default matches a value of one line from
end to end and captures all of it, so a replacement by the first group copies the value. No path
through the program of this pattern reads a line break, so a value of several lines is not copied,
and what the target held before stays.
-/

namespace LogIntake

open Regex

namespace Regex

/-- The program of the pattern of rules that give none, between the ends of the text. -/
def lineCopy : Program :=
  ⟨#[.accept, .note 1 0, .look .textEnd 1, .note 3 2, .branch 5 3, .chars Unicode.CodeRanges.line 4,
      .note 2 4, .look .textStart 6, .note 0 7],
    8⟩

/-- The pattern that rules have by default compiles to this program. -/
theorem exists_lineCopy
    : ∃ regex,
        Regex.compile (Relabel.anchored Relabel.Rule.defaultRegex) = .ok regex
        ∧ regex.program = lineCopy
        ∧ regex.captures = 1
        ∧ regex.names = [] := by
  have compiles
      : (Regex.compile (Relabel.anchored Relabel.Rule.defaultRegex)).toOption.any
          (fun regex => regex.program.code = lineCopy.code && regex.program.entry = lineCopy.entry
            && regex.captures = 1 && regex.names = [])
        = true := by
    decide +kernel
  obtain ⟨regex, compiled, parts⟩ := any_toOption_iff.mp compiles
  simp only [Bool.and_eq_true, decide_eq_true_eq] at parts
  obtain ⟨⟨⟨code, entry⟩, captures⟩, names⟩ := parts
  exact ⟨regex, compiled, congrArg₂ Program.mk code entry, captures, names⟩

/-- How far a path has come: what it has noted, and that it has read no line break. -/
inductive CopyStage (text : List Char) : Nat → Path → Prop
  | entered {index} : CopyStage text index ⟨8, [none, none, none, none]⟩
  | begun {index} : CopyStage text index ⟨7, [some index, none, none, none]⟩
  | atStart : CopyStage text 0 ⟨6, [some 0, none, none, none]⟩
  | reading {index inst} (loop : inst = 3 ∨ inst = 4 ∨ inst = 5) (line : '\n' ∉ text.take index)
    : CopyStage text index ⟨inst, [some 0, none, some 0, none]⟩
  | captured {index} (line : '\n' ∉ text.take index)
    : CopyStage text index ⟨2, [some 0, none, some 0, some index]⟩
  | atEnd (line : '\n' ∉ text)
    : CopyStage text text.length ⟨1, [some 0, none, some 0, some text.length]⟩
  | accepted {index} (line : '\n' ∉ text)
    : CopyStage text index ⟨0, [some 0, some text.length, some 0, some text.length]⟩

variable {text : List Char} {index index' : Nat} {path path' : Path}

/-- Each instruction leads from a stage to a stage. -/
theorem CopyStage.step (inside : index ≤ text.length) (stage : CopyStage text index path)
    (step : Step lineCopy text index path index' path')
    : CopyStage text index' path' := by
  have taken := step.taken
  cases stage with
  | entered =>
      obtain ⟨rfl, rfl⟩ := taken
      exact .begun
  | begun =>
      obtain ⟨holds, rfl, rfl⟩ := taken
      cases (textStart_holds_iff inside).mp holds
      exact .atStart
  | atStart =>
      obtain ⟨rfl, rfl⟩ := taken
      exact .reading (.inr (.inl rfl)) (by simp)
  | reading loop line =>
      rcases loop with rfl | rfl | rfl
      · obtain ⟨rfl, rfl⟩ := taken
        exact .captured line
      · obtain ⟨rfl, rfl | rfl⟩ := taken
        · exact .reading (.inr (.inr rfl)) line
        · exact .reading (.inl rfl) line
      · obtain ⟨c, char, member, rfl, rfl⟩ := taken
        refine .reading (.inr (.inl rfl)) ?_
        rw [List.take_add_one, char]
        have notBreak := Unicode.CodeRanges.line_contains_iff.mp member
        simpa [line] using notBreak.symm
  | captured line =>
      obtain ⟨holds, rfl, rfl⟩ := taken
      cases (textEnd_holds_iff inside).mp holds
      rw [List.take_length] at line
      exact .atEnd line
  | atEnd line =>
      obtain ⟨rfl, rfl⟩ := taken
      exact .accepted line
  | accepted => exact taken.elim

/-- Every path is at some stage, by induction on its steps. -/
theorem CopyStage.of_reaches (reached : Reaches lineCopy (List.replicate 4 none) text index path)
    : CopyStage text index path := by
  induction reached with
  | enter => exact .entered
  | step reached step ih => exact ih.step reached.inside step

/-- In a text of one line some path is accepted: it reads the text in the rounds of the loop. -/
theorem lineCopy_accepts (line : '\n' ∉ text)
    : ∃ slots, Accepts lineCopy (List.replicate 4 none) text slots := by
  have members : ∀ c ∈ text, Unicode.CodeRanges.line.contains c.toNat = true := by
    intro c member
    exact Unicode.CodeRanges.line_contains_iff.mpr fun same => line (same ▸ member)
  have entered : Reaches lineCopy (List.replicate 4 none) text 0 ⟨8, List.replicate 4 none⟩ :=
    .enter (Nat.zero_le _)
  have begun := entered.step (.note rfl)
  have started := begun.step (.look rfl ((textStart_holds_iff (Nat.zero_le _)).mpr rfl))
  have opened := started.step (.note rfl)
  have ahead : text.drop 0 = text ++ [] := (List.append_nil text).symm
  have read := ReachesBefore.rounds ⟨0, opened, ahead⟩ rfl rfl members
  have left := (read.avoid rfl).reaches
  have closed := left.step (.note rfl)
  have ended := closed.step (.look rfl ((textEnd_holds_iff (Nat.le_refl _)).mpr rfl))
  have done := ended.step (.note rfl)
  exact ⟨_, _, _, done, rfl, rfl⟩

/-- A path is accepted only in a text of one line, and has captured all of it. -/
theorem slots_of_lineCopy_accepts {slots : Slots}
    (accepted : Accepts lineCopy (List.replicate 4 none) text slots)
    : '\n' ∉ text ∧ slots = [some 0, some text.length, some 0, some text.length] := by
  obtain ⟨index, path, reached, accepts, rfl⟩ := accepted
  cases CopyStage.of_reaches reached with
  | accepted line => exact ⟨line, rfl⟩
  | entered | begun | atStart | captured | atEnd => cases accepts
  | reading loop =>
      rcases loop with rfl | rfl | rfl
      · cases accepts
      · cases accepts
      · cases accepts

/-- The pattern finds a text of one line with all of it in the first group, and no other text. -/
theorem find_lineCopy {regex : LogIntake.Regex} (program : regex.program = lineCopy)
    (captures : regex.captures = 1) (closed : regex.program.Closed) (text : List Char)
    : ('\n' ∉ text → ∃ found, regex.find text = some found ∧ found.group 1 = text)
      ∧ ('\n' ∈ text → regex.find text = none) := by
  have accepted_iff := find_isSome_iff_accepts closed text
  rw [program, captures] at accepted_iff
  constructor
  · intro line
    obtain ⟨found, finds⟩ := Option.isSome_iff_exists.mp (accepted_iff.mpr (lineCopy_accepts line))
    have accepted := findFrom_accepts (Nat.zero_le _) finds
    rw [program, captures] at accepted
    obtain ⟨slots, _, rfl⟩ := Option.map_eq_some_iff.mp finds
    have noted := (slots_of_lineCopy_accepts accepted).2
    refine ⟨_, finds, ?_⟩
    dsimp only at noted
    simp [Match.group, Match.span?, noted]
  · intro lineBreak
    rw [← Option.not_isSome_iff_eq_none, accepted_iff]
    intro accepted
    obtain ⟨slots, accepted⟩ := accepted
    exact (slots_of_lineCopy_accepts accepted).1 lineBreak

end Regex

namespace Relabel

/-- A replacement under a label name has no fault. -/
theorem Rule.fault?_eq_none_of_plainTarget {rule : Rule} (action : rule.action = .replace)
    (target : Label.IsLabelName rule.targetLabel)
    : rule.fault? = none := by
  have named : rule.targetLabel.isEmpty = false := by
    simpa [String.isEmpty_iff] using target.ne_empty
  have plain : rule.isTemplated = false := by
    simpa [isTemplated] using target.dollar_notMem
  have valid : Label.isValidName rule.targetLabel = true := Label.isValidName_iff.mpr target
  simp [fault?, targetFault?, fieldFault?, action, named, plain, valid]

namespace CompiledRule

variable {compiled : CompiledRule} {found : Regex.Match}

theorem expansion_plain {template : String} (plain : '$' ∉ template.toList)
    : compiled.expansion found template = template := by
  rw [expansion, Regex.expand, expandTemplate_plain _ plain, String.ofList_toList]

theorem expansion_defaultReplacement
    : compiled.expansion found Rule.defaultReplacement = String.ofList (found.group 1) := by
  have parts : templateParts Rule.defaultReplacement.toList = [.group ['1']] := by decide
  have number : groupNumber? ['1'] = some 1 := by decide
  simp [expansion, Regex.expand, expandTemplate, parts, Match.reference, number]

/-- The default pattern and replacement write a value of one line under the target, and write
nothing for any other value.
-/
theorem replace_lineCopy (program : compiled.regex.program = lineCopy)
    (captures : compiled.regex.captures = 1) (closed : compiled.regex.program.Closed)
    (replacement : compiled.rule.replacement = Rule.defaultReplacement)
    (target : Label.IsLabelName compiled.rule.targetLabel) (labels : LabelSet)
    : let value := compiled.rule.sourceValue labels
      ('\n' ∉ value.toList
        → labels.WrittenAt compiled.rule.targetLabel value (compiled.replace labels value))
      ∧ ('\n' ∈ value.toList → compiled.replace labels value = labels) := by
  intro value
  have frame := replaceFrame_replace compiled labels
  unfold ReplaceFrame at frame
  obtain ⟨copied, missed⟩ := find_lineCopy program captures closed value.toList
  constructor
  · intro line
    obtain ⟨found, finds, group⟩ := copied line
    rw [finds] at frame
    dsimp only at frame
    rw [expansion_plain target.dollar_notMem, if_pos target, replacement,
      expansion_defaultReplacement, group, String.ofList_toList] at frame
    exact frame
  · intro lineBreak
    rw [missed lineBreak] at frame
    exact frame

end CompiledRule

/-- A label that has a value already has been written by leaving the set as it is. -/
theorem writtenAt_self_iff {labels : LabelSet} {name value : String}
    : labels.WrittenAt name value labels ↔ labels.value name = value :=
  ⟨LabelSet.WrittenAt.written, fun same => ⟨same, fun _ _ => rfl⟩⟩

/-- A rule that replaces by default always keeps the record. It copies the joined source values to
its target if they are one line and leaves the set as it is if they are several, so the target has
the joined values afterwards exactly if these are one line or it had them before.
-/
theorem copies_iff_line (index : Nat) (rule : Rule) (action : rule.action = .replace)
    (regex : rule.regex = Rule.defaultRegex)
    (replacement : rule.replacement = Rule.defaultReplacement)
    (target : Label.IsLabelName rule.targetLabel)
    : ∃ compiled,
        CompiledRule.compile index rule = .ok compiled
        ∧ ∀ labels,
            let value := rule.sourceValue labels
            ∃ kept,
              compiled.apply labels = some kept
              ∧ (labels.WrittenAt rule.targetLabel value kept
                ↔ '\n' ∉ value.toList ∨ labels.value rule.targetLabel = value)
              ∧ ('\n' ∈ value.toList → kept = labels) := by
  obtain ⟨pattern, compiles, program, captures, _⟩ := exists_lineCopy
  let compiled : CompiledRule := ⟨rule, pattern⟩
  have accepted : CompiledRule.compile index rule = .ok compiled :=
    CompiledRule.compile_eq_ok_iff.mpr
      ⟨Rule.fault?_eq_none_of_plainTarget action target, regex ▸ compiles, rfl⟩
  refine ⟨compiled, accepted, fun labels => ?_⟩
  intro value
  have applied : compiled.apply labels = some (compiled.replace labels value) := by
    simp [CompiledRule.apply, compiled, action, value]
  obtain ⟨copied, missed⟩ := compiled.replace_lineCopy program captures
    (closed_of_compile compiles) replacement target labels
  refine ⟨_, applied, ?_, missed⟩
  by_cases line : '\n' ∈ value.toList
  · have kept : compiled.replace labels value = labels := missed line
    rw [kept, writtenAt_self_iff]
    simp [line]
  · have written : labels.WrittenAt rule.targetLabel value (compiled.replace labels value) :=
      copied line
    simp [line, written]

/-- Two values, one of them of an absent label, are joined in place of an old value. -/
theorem copies_iff_line_absent_source
    : let rule : Rule :=
        {
          Rule.default with
          sourceLabels := ["zone", "node"]
          separator := "/"
          targetLabel := "place"
        }
      let labels := LabelSet.ofList [("zone", "b"), ("place", "old")]
      rule.action = .replace
      ∧ rule.regex = Rule.defaultRegex
      ∧ rule.replacement = Rule.defaultReplacement
      ∧ Label.IsLabelName rule.targetLabel
      ∧ ∃ compiled kept,
          CompiledRule.compile 0 rule = .ok compiled
          ∧ compiled.apply labels = some kept
          ∧ labels.WrittenAt "place" "b/" kept := by
  intro rule labels
  have target : Label.IsLabelName rule.targetLabel := by decide
  have value : rule.sourceValue labels = "b/" := by decide +kernel
  obtain ⟨compiled, compiles, applies⟩ := copies_iff_line 0 rule rfl rfl rfl target
  obtain ⟨kept, applied, written, _⟩ := applies labels
  rw [value] at written
  exact ⟨rfl, rfl, rfl, target, compiled, kept, compiles, applied, written.mpr (.inl (by decide))⟩

/-- A value of two lines is not copied, and the target keeps an old value. -/
theorem lineBreak_leaves_stale_target
    : ¬∀ (index : Nat) (rule : Rule),
        rule.action = .replace
        → rule.regex = Rule.defaultRegex
        → rule.replacement = Rule.defaultReplacement
        → Label.IsLabelName rule.targetLabel
        → ∃ compiled,
            CompiledRule.compile index rule = .ok compiled
            ∧ ∀ labels, ∃ kept,
                compiled.apply labels = some kept
                ∧ labels.WrittenAt rule.targetLabel (rule.sourceValue labels) kept := by
  intro copies
  let rule : Rule := { Rule.default with sourceLabels := ["v"], targetLabel := "t" }
  let labels := LabelSet.ofList [("t", "old"), ("v", "a\nb")]
  obtain ⟨compiled, compiles, applies⟩ := copies 0 rule rfl rfl rfl (by decide)
  obtain ⟨kept, applied, written⟩ := applies labels
  have stale
      : (CompiledRule.compile 0 rule).toOption.any
          (fun compiled => (compiled.apply labels).any fun kept => kept.value "t" = "old")
        = true := by
    decide +kernel
  rw [compiles, Except.toOption, Option.any_some, applied, Option.any_some,
    decide_eq_true_eq] at stale
  have value : rule.sourceValue labels = "a\nb" := by decide +kernel
  have new := written.written
  rw [value] at new
  exact absurd (stale.symm.trans new) (by decide)

end Relabel

end LogIntake
