import LogIntake.Proofs.Regex.Anchoring
import LogIntake.Proofs.Regex.Completeness
import LogIntake.Proofs.Relabel.TemplateGrammar

/-! The pattern of templates of label names. It repeats what already repeats, so paths through its
program split a template in many ways. Yet every path has read the beginning of a template
wherever it has come to, and one path reads all of it, so the pattern finds the templates and
nothing else.
-/

namespace LogIntake.Relabel

open Label
open Regex

/-- The pattern of templates. Words are of ASCII characters in it. -/
def templatePattern : String :=
  "(?-u)^(?:(?:[a-zA-Z_]|\\$(?:\\\x7b\\w+\\\x7d|\\w+))+\\w*)+$"

-----------------------------------------------------------------------------------------
-- What the pattern compiles to
-----------------------------------------------------------------------------------------

/-- The options that are in force behind the start of the pattern. -/
def bytewise : Flags :=
  { Flags.initial with unicode := false }

/-- The characters between the brackets. -/
def letterSet : CharSet :=
  .bracketed
    (.union
      [.range ⟨'a', false⟩ ⟨'z', false⟩, .range ⟨'A', false⟩ ⟨'Z', false⟩,
       .range ⟨'_', false⟩ ⟨'_', false⟩])
    false

/-- The pattern when it has been read. -/
def templateTree : Pattern :=
  let group (inner : Pattern) : Pattern := .group (.options ⟨[], []⟩) inner
  let word : Pattern := .set (.shorthand .word false)
  let words : Pattern := .repetition 1 none true word
  let name : Pattern := .sequence [.literal ⟨'\x7b', false⟩, words, .literal ⟨'\x7d', false⟩]
  let reference : Pattern := .sequence [.literal ⟨'$', false⟩, group (.choice [name, words])]
  let items : Pattern := .repetition 1 none true (group (.choice [.set letterSet, reference]))
  let rounds : Pattern :=
    .repetition 1 none true (group (.sequence [items, .repetition 0 none true word]))
  .sequence [.options ⟨[], [.unicode]⟩, .assertion .lineStart, rounds, .assertion .lineEnd]

/-- The expression of the pattern. -/
def templateExpr : Expr :=
  let word : Expr := .chars Unicode.CodeRanges.nameRest
  let words : Expr := .repetition 1 none true word
  let name : Expr := .sequence [.chars [⟨0x7B, 0x7B⟩], words, .chars [⟨0x7D, 0x7D⟩]]
  let reference : Expr := .sequence [.chars [⟨0x24, 0x24⟩], .choice [name, words]]
  let items : Expr :=
    .repetition 1 none true (.choice [.chars Unicode.CodeRanges.nameStart, reference])
  let rounds : Expr := .repetition 1 none true (.sequence [items, .repetition 0 none true word])
  .sequence [.empty, .look .textStart, rounds, .look .textEnd]

/-- The program of the expression. -/
def templateProgram : Program :=
  ⟨#[.accept, .note 1 0, .look .textEnd 1, .branch 16 2, .branch 5 3,
      .chars Unicode.CodeRanges.nameRest 4, .branch 16 4, .branch 8 6,
      .chars Unicode.CodeRanges.nameRest 7, .chars [⟨0x7D, 0x7D⟩] 6, .branch 11 9,
      .chars Unicode.CodeRanges.nameRest 10, .chars [⟨0x7B, 0x7B⟩] 11, .branch 12 8,
      .chars [⟨0x24, 0x24⟩] 13, .chars Unicode.CodeRanges.nameStart 6, .branch 15 14,
      .look .textStart 16, .note 0 17],
    18⟩

theorem parse_templatePattern : parse templatePattern.toList = .ok ⟨templateTree, 0, []⟩ := by
  rfl

theorem ranges_letterSet : letterSet.ranges bytewise = .ok Unicode.CodeRanges.nameStart := by
  let letters : Unicode.CodeRanges :=
    .union [⟨0x61, 0x7A⟩] (.union [⟨0x41, 0x5A⟩] (.union [⟨0x5F, 0x5F⟩] []))
  -- Sorting does not compute by itself, so the order of the intervals is worked out first.
  have sorted : letters = Unicode.CodeRanges.nameStart := by
    simp [letters, Unicode.CodeRanges.union, Unicode.CodeRanges.normalize,
      Unicode.CodeRanges.attach, Unicode.CodeRanges.nameStart, List.mergeSort]
  have made : letterSet.ranges bytewise = foldAndNegate bytewise false letters := rfl
  rw [made, sorted]
  rfl

theorem toExpr_templateTree : templateTree.toExpr .initial = .ok (templateExpr, bytewise) := by
  have off : Flags.initial.apply ⟨[], [.unicode]⟩ = bytewise := rfl
  have same : bytewise.apply ⟨[], []⟩ = bytewise := rfl
  simp only [templateTree, Pattern.toExpr, Pattern.toExprs, off, same, ranges_letterSet, bind,
    Except.bind, pure, Except.pure]
  rfl

theorem program_templateExpr : templateExpr.program = templateProgram := by
  rfl

theorem compile_templatePattern
    : Regex.compile templatePattern = .ok ⟨templateProgram, 0, []⟩ := by
  have small : ¬sizeLimit < templateExpr.size := by decide
  simp only [Regex.compile, parse_templatePattern, toExpr_templateTree, Except.mapError, bind,
    Except.bind, small, if_false, program_templateExpr]
  rfl

-----------------------------------------------------------------------------------------
-- Every path has read the beginning of a template
-----------------------------------------------------------------------------------------

theorem isOpening_nil : IsOpening [] :=
  ⟨.nil, nofun⟩

/-- An opening goes on with items. Where it is empty these must not begin with a digit. -/
theorem IsOpening.append {chars more : List Char} (opening : IsOpening chars)
    (items : TemplateRest more) (head : chars = [] → ∀ c ∈ more.head?, ¬IsDigit c)
    : IsOpening (chars ++ more) := by
  refine ⟨opening.items.append items, ?_⟩
  cases chars with
  | nil => exact head rfl
  | cons c chars => exact opening.head

theorem IsOpening.append_reference {chars name : List Char} (opening : IsOpening chars)
    (reference : TemplateRest ('$' :: name))
    : IsOpening (chars ++ '$' :: name) := by
  refine opening.append reference fun _ c head => ?_
  cases head
  decide

/-- How far a path has come: what stands before it in the text. -/
inductive TemplateStage (text : List Char) : Nat → Path → Prop
  | entered {index slots} : TemplateStage text index ⟨18, slots⟩
  | begun {index slots} : TemplateStage text index ⟨17, slots⟩
  | item {index inst slots} (place : inst = 14 ∨ inst = 15 ∨ inst = 16)
    (opening : IsOpening (text.take index))
    : TemplateStage text index ⟨inst, slots⟩
  | dollar {index inst slots before} (place : inst = 12 ∨ inst = 13) (opening : IsOpening before)
    (taken : text.take index = before ++ ['$'])
    : TemplateStage text index ⟨inst, slots⟩
  | naming {index slots before name} (opening : IsOpening before)
    (continues : ∀ c ∈ name, ContinuesName c) (taken : text.take index = before ++ '$' :: name)
    : TemplateStage text index ⟨8, slots⟩
  | named {index slots before name} (opening : IsOpening before) (word : IsWord name)
    (taken : text.take index = before ++ '$' :: name)
    : TemplateStage text index ⟨7, slots⟩
  | opened {index slots before name} (opening : IsOpening before)
    (continues : ∀ c ∈ name, ContinuesName c)
    (taken : text.take index = before ++ '$' :: '\x7b' :: name)
    : TemplateStage text index ⟨11, slots⟩
  | enclosing {index inst slots before name} (place : inst = 9 ∨ inst = 10)
    (opening : IsOpening before) (word : IsWord name)
    (taken : text.take index = before ++ '$' :: '\x7b' :: name)
    : TemplateStage text index ⟨inst, slots⟩
  | behind {index inst slots} (place : inst = 4 ∨ inst = 5 ∨ inst = 6)
    (opening : IsOpening (text.take index)) (nonempty : text.take index ≠ [])
    : TemplateStage text index ⟨inst, slots⟩
  | ending {index inst slots} (place : inst = 2 ∨ inst = 3) (opening : IsOpening (text.take index))
    (nonempty : text.take index ≠ [])
    : TemplateStage text index ⟨inst, slots⟩
  | accepted {index inst slots} (place : inst = 0 ∨ inst = 1) (opening : IsOpening text)
    (nonempty : text ≠ [])
    : TemplateStage text index ⟨inst, slots⟩

variable {text : List Char} {index index' : Nat} {path path' : Path}

theorem take_of_read {c : Char} (char : text[index]? = some c)
    : text.take (index + 1) = text.take index ++ [c] := by
  rw [List.take_add_one, char, Option.toList_some]

/-- Each instruction leads from a stage to a stage. -/
theorem TemplateStage.step (inside : index ≤ text.length) (stage : TemplateStage text index path)
    (step : Step templateProgram text index path index' path')
    : TemplateStage text index' path' := by
  have taken := step.taken
  -- What an instruction reads is added to what was read before, so each case appends to an opening.
  cases stage with
  | entered =>
      obtain ⟨rfl, rfl⟩ := taken
      exact .begun
  | begun =>
      obtain ⟨holds, rfl, rfl⟩ := taken
      cases (textStart_holds_iff inside).mp holds
      exact .item (.inr (.inr rfl)) isOpening_nil
  | item place opening =>
      rcases place with rfl | rfl | rfl
      · obtain ⟨c, char, member, rfl, rfl⟩ := taken
        cases (Unicode.CodeRanges.single_contains_iff '$').mp member
        exact .dollar (.inr rfl) opening (take_of_read char)
      · obtain ⟨c, char, member, rfl, rfl⟩ := taken
        obtain ⟨continues, notDigit⟩ :=
          beginsName_iff.mp (Unicode.CodeRanges.nameStart_contains_iff.mp member)
        have read := opening.append (.char continues .nil) fun _ => by simpa using notDigit
        rw [← take_of_read char] at read
        exact .behind (.inr (.inr rfl)) read (by simp [take_of_read char])
      · obtain ⟨rfl, rfl | rfl⟩ := taken
        · exact .item (.inr (.inl rfl)) opening
        · exact .item (.inl rfl) opening
  | dollar place opening before =>
      rcases place with rfl | rfl
      · obtain ⟨c, char, member, rfl, rfl⟩ := taken
        cases (Unicode.CodeRanges.single_contains_iff '\x7b').mp member
        refine .opened opening (List.forall_mem_nil _) ?_
        rw [take_of_read char, before, List.append_assoc]
        rfl
      · obtain ⟨rfl, rfl | rfl⟩ := taken
        · exact .dollar (.inl rfl) opening before
        · exact .naming opening (List.forall_mem_nil _) before
  | naming opening continues before =>
      obtain ⟨c, char, member, rfl, rfl⟩ := taken
      have last := Unicode.CodeRanges.nameRest_contains_iff.mp member
      refine .named opening (isWord_concat continues last) ?_
      rw [take_of_read char, before, List.append_assoc]
      rfl
  | named opening word before =>
      obtain ⟨rfl, rfl | rfl⟩ := taken
      · exact .naming opening word.2 before
      · have item : TemplateItem.WellFormed (.reference _) := word
        have read := opening.append_reference item.templateRest
        rw [← before] at read
        exact .behind (.inr (.inr rfl)) read (by simp [before])
  | opened opening continues before =>
      obtain ⟨c, char, member, rfl, rfl⟩ := taken
      have last := Unicode.CodeRanges.nameRest_contains_iff.mp member
      refine .enclosing (.inr rfl) opening (isWord_concat continues last) ?_
      rw [take_of_read char, before, List.append_assoc]
      rfl
  | enclosing place opening word before =>
      rcases place with rfl | rfl
      · obtain ⟨c, char, member, rfl, rfl⟩ := taken
        cases (Unicode.CodeRanges.single_contains_iff '\x7d').mp member
        have item : TemplateItem.WellFormed (.braced _) := word
        have read := opening.append_reference item.templateRest
        rw [← List.cons_append, ← List.cons_append, ← List.append_assoc, ← before,
          ← take_of_read char] at read
        exact .behind (.inr (.inr rfl)) read (by simp [take_of_read char])
      · obtain ⟨rfl, rfl | rfl⟩ := taken
        · exact .opened opening word.2 before
        · exact .enclosing (.inl rfl) opening word before
  | behind place opening nonempty =>
      rcases place with rfl | rfl | rfl
      · obtain ⟨rfl, rfl | rfl⟩ := taken
        · exact .behind (.inr (.inl rfl)) opening nonempty
        · exact .ending (.inr rfl) opening nonempty
      · obtain ⟨c, char, member, rfl, rfl⟩ := taken
        have continues := Unicode.CodeRanges.nameRest_contains_iff.mp member
        have read := opening.append (.char continues .nil) fun empty => absurd empty nonempty
        rw [← take_of_read char] at read
        exact .behind (.inl rfl) read (by simp [take_of_read char])
      · obtain ⟨rfl, rfl | rfl⟩ := taken
        · exact .item (.inr (.inr rfl)) opening
        · exact .behind (.inl rfl) opening nonempty
  | ending place opening nonempty =>
      rcases place with rfl | rfl
      · obtain ⟨holds, rfl, rfl⟩ := taken
        cases (textEnd_holds_iff inside).mp holds
        rw [List.take_length] at opening nonempty
        exact .accepted (.inr rfl) opening nonempty
      · obtain ⟨rfl, rfl | rfl⟩ := taken
        · exact .item (.inr (.inr rfl)) opening
        · exact .ending (.inl rfl) opening nonempty
  | accepted place opening nonempty =>
      rcases place with rfl | rfl
      · exact taken.elim
      · obtain ⟨rfl, rfl⟩ := taken
        exact .accepted (.inl rfl) opening nonempty

/-- Every path is at some stage, by induction on its steps. -/
theorem TemplateStage.of_reaches {start : Slots}
    (reached : Reaches templateProgram start text index path)
    : TemplateStage text index path := by
  induction reached with
  | enter => exact .entered
  | step reached step ih => exact ih.step reached.inside step

/-- Where a path is accepted, it has read a template. -/
theorem isOpening_of_accepts {start slots : Slots}
    (accepted : Accepts templateProgram start text slots)
    : IsOpening text ∧ text ≠ [] := by
  obtain ⟨index, path, reached, accepts, _⟩ := accepted
  have first : ∀ inst < 19, templateProgram.code.getD inst .accept = .accept → inst = 0 := by decide
  cases TemplateStage.of_reaches reached with
  | accepted _ opening nonempty => exact ⟨opening, nonempty⟩
  | entered | begun | naming | named | opened => cases accepts
  | item place | dollar place | enclosing place | behind place | ending place =>
      have zero := first _ (by dsimp only; omega) accepts
      dsimp only at zero
      omega

-----------------------------------------------------------------------------------------
-- One path reads a template
-----------------------------------------------------------------------------------------

variable {start slots : Slots}

theorem nameRest_members {name : List Char} (word : IsWord name)
    : ∀ c ∈ name, Unicode.CodeRanges.nameRest.contains c.toNat = true := by
  exact fun c member => Unicode.CodeRanges.nameRest_contains_iff.mpr (word.2 c member)

/-- A path reads a reference, with or without braces. -/
theorem reads_reference {item : TemplateItem} (wellFormed : item.WellFormed)
    (reference : ∀ c, item ≠ .char c) {rest : List Char}
    (reached : ReachesBefore templateProgram start text ⟨14, slots⟩ (item.text ++ rest))
    : ReachesBefore templateProgram start text ⟨4, slots⟩ rest := by
  cases item with
  | char c => exact absurd rfl (reference c)
  | reference name =>
      have dollar : ReachesBefore templateProgram start text ⟨13, slots⟩ (name ++ rest) :=
        reached.read rfl (by decide)
      have atName := dollar.avoid rfl
      have named := atName.leave rfl rfl wellFormed.1 (nameRest_members wellFormed)
      exact named.avoid rfl
  | braced name =>
      have whole
          : TemplateItem.text (.braced name) ++ rest
            = '$' :: '\x7b' :: (name ++ '\x7d' :: rest) := by
        simp [TemplateItem.text]
      rw [whole] at reached
      have dollar := reached.read rfl (by decide)
      have opened := (dollar.prefer rfl).read rfl (by decide)
      have named := opened.leave rfl rfl wellFormed.1 (nameRest_members wellFormed)
      have closed := named.read rfl (by decide)
      exact closed.avoid rfl

/-- Behind an item a path reads the others, by induction on them. -/
theorem reads_items {items : List TemplateItem} (wellFormed : ∀ item ∈ items, item.WellFormed)
    (reached
      : ReachesBefore templateProgram start text ⟨4, slots⟩ (items.flatMap TemplateItem.text))
    : ReachesBefore templateProgram start text ⟨4, slots⟩ [] := by
  induction items with
  | nil => exact reached
  | cons item items ih =>
      obtain ⟨first, others⟩ := List.forall_mem_cons.mp wellFormed
      refine ih others ?_
      rw [List.flatMap_cons] at reached
      cases item with
      | char c =>
          exact (reached.prefer rfl).read rfl (Unicode.CodeRanges.nameRest_contains_iff.mpr first)
      | reference | braced =>
          have atItem := ((reached.avoid rfl).prefer rfl).avoid rfl
          exact reads_reference first nofun atItem

/-- In a template some path is accepted. -/
theorem templateProgram_accepts (start : Slots) {text : String} (template : IsLabelTemplate text)
    : ∃ slots, Accepts templateProgram start text.toList slots := by
  obtain ⟨items, nonempty, wellFormed, same, head⟩ := template
  obtain ⟨item, items, rfl⟩ := List.exists_cons_of_ne_nil nonempty
  obtain ⟨first, others⟩ := List.forall_mem_cons.mp wellFormed
  rw [List.flatMap_cons] at same
  have entered : Reaches templateProgram start text.toList 0 ⟨18, start⟩ := .enter (Nat.zero_le _)
  have begun := entered.step (.note rfl)
  have started := begun.step (.look rfl ((textStart_holds_iff (Nat.zero_le _)).mpr rfl))
  have atItem : ReachesBefore templateProgram start text.toList ⟨16, start.set 0 (some 0)⟩
      (item.text ++ items.flatMap TemplateItem.text) :=
    ⟨0, started, same⟩
  have behind : ReachesBefore templateProgram start text.toList ⟨4, start.set 0 (some 0)⟩
      (items.flatMap TemplateItem.text) := by
    cases item with
    | char c =>
        have begins : BeginsName c := beginsName_iff.mpr ⟨first, head c (by rw [same]; rfl)⟩
        have member := Unicode.CodeRanges.nameStart_contains_iff.mpr begins
        exact ((atItem.prefer rfl).read rfl member).avoid rfl
    | reference | braced => exact reads_reference first nofun (atItem.avoid rfl)
  have all := reads_items others behind
  have left := ((all.avoid rfl).avoid rfl).reaches
  have ended := left.step (.look rfl ((textEnd_holds_iff (Nat.le_refl _)).mpr rfl))
  have done := ended.step (.note rfl)
  exact ⟨_, _, _, done, rfl, rfl⟩

/-- The pattern finds templates and nothing else. -/
theorem isMatch_templatePattern_iff {regex : LogIntake.Regex}
    (compiled : Regex.compile templatePattern = .ok regex) (text : String)
    : regex.isMatch text.toList = true ↔ IsLabelTemplate text := by
  have found := find_isSome_iff_accepts (closed_of_compile compiled) text.toList
  cases compiled.symm.trans compile_templatePattern
  rw [Regex.isMatch, found]
  constructor
  · intro accepted
    obtain ⟨slots, accepted⟩ := accepted
    obtain ⟨opening, nonempty⟩ := isOpening_of_accepts accepted
    exact isLabelTemplate_iff.mpr ⟨nonempty, opening⟩
  · exact templateProgram_accepts _

end LogIntake.Relabel
