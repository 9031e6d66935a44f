import LogIntake.Proofs.Label.NameGrammar
import LogIntake.Proofs.Unicode.Ranges
import LogIntake.Relabel.Check

/-! The grammar of templates, said without the check that decides it. A template of a label name
is a row of name characters and references, and it does not begin with a digit. Without references
the templates are the label names.
-/

namespace LogIntake.Relabel

open Label

/-- One item of a template: a character of names, or a reference with or without braces. -/
inductive TemplateItem where
  | char (c : Char)
  | reference (name : List Char)
  | braced (name : List Char)

/-- The texts that references name groups with. -/
def IsWord (name : List Char) : Prop :=
  name ≠ [] ∧ ∀ c ∈ name, ContinuesName c

namespace TemplateItem

def text : TemplateItem → List Char
  | .char c => [c]
  | .reference name => '$' :: name
  | .braced name => '$' :: '\x7b' :: (name ++ ['\x7d'])

def WellFormed : TemplateItem → Prop
  | .char c => ContinuesName c
  | .reference name | .braced name => IsWord name

end TemplateItem

def IsDigit (c : Char) : Prop :=
  '0' ≤ c ∧ c ≤ '9'

instance (c : Char) : Decidable (IsDigit c) :=
  inferInstanceAs (Decidable (_ ∧ _))

/-- The texts that are templates of label names. -/
def IsLabelTemplate (text : String) : Prop :=
  ∃ items : List TemplateItem,
    items ≠ []
    ∧ (∀ item ∈ items, item.WellFormed)
    ∧ text.toList = items.flatMap TemplateItem.text
    ∧ ∀ c ∈ text.toList.head?, ¬IsDigit c

-----------------------------------------------------------------------------------------
-- Templates character by character
-----------------------------------------------------------------------------------------

/-- What may stand behind an item of a template. A reference without braces takes one character of a
name for certain; those that follow it may as well stand for themselves.
-/
inductive TemplateRest : List Char → Prop
  | nil : TemplateRest []
  | char {c rest} (continues : ContinuesName c) (after : TemplateRest rest)
    : TemplateRest (c :: rest)
  | reference {c rest} (continues : ContinuesName c) (after : TemplateRest (c :: rest))
    : TemplateRest ('$' :: c :: rest)
  | braced {name rest} (word : IsWord name) (after : TemplateRest rest)
    : TemplateRest ('$' :: '\x7b' :: (name ++ '\x7d' :: rest))

theorem isWord_concat {name : List Char} {c : Char} (continues : ∀ c ∈ name, ContinuesName c)
    (last : ContinuesName c)
    : IsWord (name ++ [c]) := by
  refine ⟨by simp, ?_⟩
  intro other member
  rcases List.mem_append.mp member with before | same
  · exact continues other before
  · exact List.mem_singleton.mp same ▸ last

theorem not_continuesName_opening : ¬ContinuesName '\x7b' := by
  decide

theorem not_continuesName_closing : ¬ContinuesName '\x7d' := by
  decide

theorem TemplateRest.append {chars more : List Char} (template : TemplateRest chars)
    (after : TemplateRest more)
    : TemplateRest (chars ++ more) := by
  induction template with
  | nil => exact after
  | char continues _ ih => exact .char continues ih
  | reference continues _ ih => exact .reference continues ih
  | braced word _ ih =>
      have whole := TemplateRest.braced word ih
      simpa using whole

theorem templateRest_of_continues {name : List Char} (continues : ∀ c ∈ name, ContinuesName c)
    : TemplateRest name := by
  induction name with
  | nil => exact .nil
  | cons c name ih =>
      obtain ⟨first, others⟩ := List.forall_mem_cons.mp continues
      exact .char first (ih others)

/-- The text of an item is a template character by character. -/
theorem TemplateItem.WellFormed.templateRest {item : TemplateItem} (wellFormed : item.WellFormed)
    : TemplateRest item.text := by
  cases item with
  | char c => exact .char wellFormed .nil
  | reference name =>
      obtain ⟨nonempty, continues⟩ := wellFormed
      obtain ⟨c, rest, rfl⟩ := List.exists_cons_of_ne_nil nonempty
      exact .reference (continues c List.mem_cons_self) (templateRest_of_continues continues)
  | braced name => exact .braced wellFormed .nil

/-- A row of items is a template character by character, and the other way round. -/
theorem templateRest_iff_items {chars : List Char}
    : TemplateRest chars
      ↔ ∃ items : List TemplateItem,
          (∀ item ∈ items, item.WellFormed) ∧ chars = items.flatMap TemplateItem.text := by
  constructor
  · intro template
    induction template with
    | nil => exact ⟨[], nofun, rfl⟩
    | @char c rest continues after ih =>
        obtain ⟨items, wellFormed, rfl⟩ := ih
        exact ⟨.char c :: items, List.forall_mem_cons.mpr ⟨continues, wellFormed⟩, rfl⟩
    | @reference c rest continues after ih =>
        obtain ⟨items, wellFormed, same⟩ := ih
        -- The character behind the dollar sign heads the row; it becomes the name of a reference.
        cases items with
        | nil => cases same
        | cons item items =>
            obtain ⟨first, others⟩ := List.forall_mem_cons.mp wellFormed
            cases item with
            | char d =>
                obtain ⟨rfl, rfl⟩ := List.cons.inj same
                have word : IsWord [c] :=
                  ⟨List.cons_ne_nil _ _, fun d member => List.mem_singleton.mp member ▸ continues⟩
                exact ⟨.reference [c] :: items, List.forall_mem_cons.mpr ⟨word, others⟩, rfl⟩
            | reference | braced =>
                exact absurd (List.cons.inj same).1 (continues.ne not_continuesName_dollar)
    | @braced name rest word after ih =>
        obtain ⟨items, wellFormed, rfl⟩ := ih
        refine ⟨.braced name :: items, List.forall_mem_cons.mpr ⟨word, wellFormed⟩, ?_⟩
        simp [TemplateItem.text]
  · intro row
    obtain ⟨items, wellFormed, rfl⟩ := row
    induction items with
    | nil => exact .nil
    | cons item items ih =>
        obtain ⟨first, others⟩ := List.forall_mem_cons.mp wellFormed
        rw [List.flatMap_cons]
        exact first.templateRest.append (ih others)

/-- The check for a name between braces tells what follows it. -/
theorem afterBraces?_braced {name : List Char} (word : IsWord name) (after : List Char)
    : afterBraces? ('\x7b' :: (name ++ '\x7d' :: after)) = some after := by
  obtain ⟨nonempty, continues⟩ := word
  have taken : (name ++ '\x7d' :: after).takeWhile isNameChar = name := by
    rw [List.takeWhile_append_of_pos fun c member => isNameChar_iff.mpr (continues c member)]
    simp [isNameChar]
  simp [afterBraces?, taken, nonempty]

/-- The check passes only where a name stands between braces. -/
theorem exists_of_afterBraces? {chars after : List Char} (found : afterBraces? chars = some after)
    : ∃ name, IsWord name ∧ chars = '\x7b' :: (name ++ '\x7d' :: after) := by
  unfold afterBraces? at found
  split at found
  case h_1 rest =>
    dsimp only at found
    have whole : rest.takeWhile isNameChar ++ rest.drop (rest.takeWhile isNameChar).length = rest :=
      List.prefix_iff_eq_append.mp (List.takeWhile_prefix _)
    split at found
    case h_1 behind closing =>
      split at found
      case isTrue => cases found
      case isFalse nonempty =>
        cases found
        refine ⟨rest.takeWhile isNameChar, ⟨by simpa using nonempty, ?_⟩, by rw [← closing, whole]⟩
        exact fun c member => isNameChar_iff.mp (List.all_eq_true.mp List.all_takeWhile c member)
    case h_2 => cases found
  case h_2 => cases found

theorem templateRest_cons_iff {c : Char} {rest : List Char} (isText : c ≠ '$')
    : TemplateRest (c :: rest) ↔ ContinuesName c ∧ TemplateRest rest := by
  constructor
  · intro template
    cases template with
    | char continues after => exact ⟨continues, after⟩
    | reference | braced => exact absurd rfl isText
  · exact fun both => .char both.1 both.2

/-- A name between braces is read in one way only. -/
theorem templateRest_braced_iff {name after : List Char} (word : IsWord name)
    : TemplateRest ('$' :: '\x7b' :: (name ++ '\x7d' :: after)) ↔ TemplateRest after := by
  constructor
  · intro template
    generalize whole : '\x7b' :: (name ++ '\x7d' :: after) = chars at template
    have found : afterBraces? chars = some after := whole ▸ afterBraces?_braced word after
    cases template with
    | char continues => exact absurd continues not_continuesName_dollar
    | reference continues =>
        cases whole
        exact absurd continues not_continuesName_opening
    | @braced other behind otherWord afterOther =>
        cases found.symm.trans (afterBraces?_braced otherWord behind)
        exact afterOther
  · exact .braced word

/-- Without a name between braces, a reference needs one character of a name. -/
theorem templateRest_unbraced_iff {rest : List Char} (unbraced : afterBraces? rest = none)
    : TemplateRest ('$' :: rest) ↔ rest.head?.any isNameChar = true ∧ TemplateRest rest := by
  constructor
  · intro template
    cases template with
    | char continues => exact absurd continues not_continuesName_dollar
    | reference continues after => exact ⟨isNameChar_iff.mpr continues, after⟩
    | braced word after => cases unbraced.symm.trans (afterBraces?_braced word _)
  · intro both
    obtain ⟨head, after⟩ := both
    cases rest with
    | nil => cases head
    | cons d rest => exact .reference (isNameChar_iff.mp head) after

/-- The check passes exactly for what may stand behind an item, by induction on its bound. -/
theorem isTemplateRest_iff {fuel : Nat} {chars : List Char} (enough : chars.length ≤ fuel)
    : isTemplateRest fuel chars = true ↔ TemplateRest chars := by
  induction fuel generalizing chars with
  | zero =>
      cases List.length_eq_zero_iff.mp (Nat.le_zero.mp enough)
      exact ⟨fun _ => .nil, fun _ => rfl⟩
  | succ fuel ih =>
      cases chars with
      | nil => exact ⟨fun _ => .nil, fun _ => rfl⟩
      | cons c rest =>
          rw [List.length_cons] at enough
          rw [isTemplateRest]
          by_cases dollar : c = '$'
          · subst dollar
            rw [if_pos rfl]
            cases found : afterBraces? rest with
            | some after =>
                obtain ⟨name, word, rfl⟩ := exists_of_afterBraces? found
                simp only [List.length_cons, List.length_append] at enough
                rw [templateRest_braced_iff word]
                exact ih (by omega)
            | none =>
                rw [templateRest_unbraced_iff found, Bool.and_eq_true, ih (by omega)]
          · rw [if_neg dollar, Bool.and_eq_true, isNameChar_iff, ih (by omega),
              templateRest_cons_iff dollar]

-----------------------------------------------------------------------------------------
-- Templates as a whole
-----------------------------------------------------------------------------------------

theorem isDigit_iff {c : Char} : c.isDigit = true ↔ IsDigit c := by
  simp only [Char.isDigit, IsDigit, Bool.and_eq_true, decide_eq_true_eq, Char.le_def, ge_iff_le]

/-- A name may begin with what it may go on with, except for digits. -/
theorem beginsName_iff {c : Char} : BeginsName c ↔ ContinuesName c ∧ ¬IsDigit c := by
  constructor
  · intro begins
    refine ⟨.inl begins, fun digit => ?_⟩
    have underscore : c = '_' ↔ c.toNat = 0x5F := Char.toNat_inj.symm
    simp only [BeginsName, IsDigit, Unicode.CodeRanges.le_iff_toNat_le, underscore] at begins digit
    have ends : 'a'.toNat = 0x61 ∧ 'A'.toNat = 0x41 ∧ '9'.toNat = 0x39 := by decide
    omega
  · intro both
    exact both.1.resolve_right both.2

/-- What templates may begin with: items, and no digit in front. -/
structure IsOpening (chars : List Char) : Prop where
  items : TemplateRest chars
  head : ∀ c ∈ chars.head?, ¬IsDigit c

theorem TemplateItem.text_ne_nil (item : TemplateItem) : item.text ≠ [] := by
  cases item with
  | char | reference | braced => exact List.cons_ne_nil _ _

/-- A template is an opening that is not empty. -/
theorem isLabelTemplate_iff {text : String}
    : IsLabelTemplate text ↔ text.toList ≠ [] ∧ IsOpening text.toList := by
  constructor
  · intro template
    obtain ⟨items, nonempty, wellFormed, same, head⟩ := template
    refine ⟨?_, templateRest_iff_items.mpr ⟨items, wellFormed, same⟩, head⟩
    obtain ⟨item, others, rfl⟩ := List.exists_cons_of_ne_nil nonempty
    rw [same, List.flatMap_cons]
    exact List.append_ne_nil_of_left_ne_nil item.text_ne_nil _
  · intro opening
    obtain ⟨nonempty, template, head⟩ := opening
    obtain ⟨items, wellFormed, same⟩ := templateRest_iff_items.mp template
    refine ⟨items, ?_, wellFormed, same, head⟩
    rintro rfl
    exact nonempty same

/-- The check for templates decides the grammar. -/
theorem isTemplate_iff {text : String} : isTemplate text = true ↔ IsLabelTemplate text := by
  have head : text.toList.head?.any Char.isDigit = false ↔ ∀ c ∈ text.toList.head?, ¬IsDigit c := by
    cases text.toList.head? with
    | none => simp
    | some c => simp [← isDigit_iff]
  have opening
      : IsOpening text.toList
        ↔ (∀ c ∈ text.toList.head?, ¬IsDigit c) ∧ TemplateRest text.toList :=
    ⟨fun opening => ⟨opening.head, opening.items⟩, fun both => ⟨both.2, both.1⟩⟩
  simp only [isTemplate, Bool.and_eq_true, Bool.not_eq_true', head, List.isEmpty_eq_false_iff,
    isTemplateRest_iff (Nat.le_refl _), isLabelTemplate_iff, opening, and_assoc]

/-- Where no reference stands, all characters of a template are characters of names. -/
theorem continues_of_templateRest {chars : List Char} (template : TemplateRest chars)
    (plain : '$' ∉ chars)
    : ∀ c ∈ chars, ContinuesName c := by
  induction template with
  | nil => exact nofun
  | char continues after ih =>
      have others := ih fun member => plain (List.mem_cons_of_mem _ member)
      exact List.forall_mem_cons.mpr ⟨continues, others⟩
  | reference | braced => exact absurd List.mem_cons_self plain

/-- Of the texts without references, the templates are the label names. -/
theorem isTemplate_eq_isValidName {text : String} (plain : '$' ∉ text.toList)
    : isTemplate text = isValidName text := by
  rw [Bool.eq_iff_iff, isTemplate_iff, isLabelTemplate_iff, isValidName_iff]
  constructor
  · intro template
    obtain ⟨nonempty, items, head⟩ := template
    obtain ⟨first, rest, chars⟩ := List.exists_cons_of_ne_nil nonempty
    have each := continues_of_templateRest items plain
    rw [chars] at each head
    obtain ⟨continues, others⟩ := List.forall_mem_cons.mp each
    exact ⟨first, rest, chars, beginsName_iff.mpr ⟨continues, head first rfl⟩, others⟩
  · intro name
    refine ⟨by simpa using name.ne_empty, templateRest_of_continues name.continues, ?_⟩
    obtain ⟨first, rest, chars, begins, _⟩ := name
    intro c head
    rw [chars] at head
    cases head
    exact (beginsName_iff.mp begins).2

end LogIntake.Relabel
