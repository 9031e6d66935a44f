import LogIntake.Proofs.InternalLabels.Writes
import LogIntake.Proofs.Relabel.TemplateGrammar

/-! Keys that are cleaned. A cleaned key is a fragment of a name: it has one character for each of
the key, all of them may stand in names, and cleaning it again changes nothing. Behind a name it
makes another name, so whatever is put together of an entry and its envelope has names that the
grammar admits.
-/

namespace LogIntake

namespace Label

-----------------------------------------------------------------------------------------
-- Fragments of names
-----------------------------------------------------------------------------------------

/-- The character that stands for another one in a fragment. -/
def cleanedChar (c : Char) : Char :=
  if ContinuesName c then c else '_'

theorem beginsName_underscore : BeginsName '_' :=
  .inr (.inr rfl)

theorem continuesName_cleanedChar (c : Char) : ContinuesName (cleanedChar c) := by
  unfold cleanedChar
  split
  case isTrue continues => exact continues
  case isFalse => exact .inl beginsName_underscore

theorem cleanedChar_eq_self_iff {c : Char} : cleanedChar c = c ↔ ContinuesName c :=
  ⟨fun kept => kept ▸ continuesName_cleanedChar c, fun continues => if_pos continues⟩

/-- A cleaned character begins a name unless it was a digit and is one still. -/
theorem beginsName_cleanedChar_iff {c : Char}
    : BeginsName (cleanedChar c) ↔ ¬Relabel.IsDigit c := by
  unfold cleanedChar
  split
  case isTrue continues => exact Relabel.beginsName_iff.trans (and_iff_right continues)
  case isFalse refused =>
    exact iff_of_true beginsName_underscore fun digit => refused (.inr digit)

/-- A text that is not empty is cleaned character by character. -/
theorem toList_sanitize {text : String} (present : text ≠ "")
    : (sanitize text).toList = text.toList.map cleanedChar := by
  have chars (c : Char) : (if isNameChar c then c else '_') = cleanedChar c := by
    simp only [cleanedChar, isNameChar_iff]
  have filled : ¬text.isEmpty = true := fun empty => present (String.isEmpty_iff.mp empty)
  rw [sanitize, if_neg filled, String.toList_ofList]
  simp only [chars]

theorem sanitize_empty : sanitize "" = "_" :=
  rfl

/-- All characters of a fragment may stand in names. -/
theorem continues_sanitize (text : String) : ∀ c ∈ (sanitize text).toList, ContinuesName c := by
  by_cases present : text = ""
  · subst present
    have single : (sanitize "").toList = ['_'] := by decide
    rw [single, List.forall_mem_singleton]
    exact .inl beginsName_underscore
  · rw [toList_sanitize present]
    intro c member
    obtain ⟨own, _, rfl⟩ := List.mem_map.mp member
    exact continuesName_cleanedChar own

theorem length_sanitize (text : String)
    : (sanitize text).length = if text = "" then 1 else text.length := by
  split
  case isTrue empty => rw [empty, sanitize_empty]; rfl
  case isFalse present =>
    rw [← String.length_toList, toList_sanitize present, List.length_map, String.length_toList]

theorem sanitize_ne_empty (text : String) : sanitize text ≠ "" := by
  intro empty
  have length := length_sanitize text
  rw [empty] at length
  split at length
  case isTrue => cases length
  case isFalse present => exact present (String.length_eq_zero_iff.mp length.symm)

/-- A text is its own fragment exactly if it is not empty and could stand in a name as it is. -/
theorem sanitize_eq_self_iff {text : String}
    : sanitize text = text ↔ text ≠ "" ∧ ∀ c ∈ text.toList, ContinuesName c := by
  constructor
  · intro same
    exact ⟨same ▸ sanitize_ne_empty text, same ▸ continues_sanitize text⟩
  · rintro ⟨present, continues⟩
    apply String.toList_injective
    rw [toList_sanitize present]
    have kept : text.toList.map cleanedChar = text.toList.map id :=
      List.map_congr_left fun c member => cleanedChar_eq_self_iff.mpr (continues c member)
    rw [kept, List.map_id]

-----------------------------------------------------------------------------------------
-- Names with fragments
-----------------------------------------------------------------------------------------

/-- A fragment is a name by itself unless the text begins with a digit. -/
theorem isLabelName_sanitize_iff {text : String}
    : IsLabelName (sanitize text) ↔ ∀ c ∈ text.toList.head?, ¬Relabel.IsDigit c := by
  by_cases present : text = ""
  · subst present
    rw [sanitize_empty]
    exact iff_of_true (by decide) nofun
  · obtain ⟨first, rest, chars⟩ :=
      List.exists_cons_of_ne_nil fun none => present (String.toList_eq_nil_iff.mp none)
    have others : ∀ c ∈ rest.map cleanedChar, ContinuesName c := by
      intro c member
      obtain ⟨own, _, rfl⟩ := List.mem_map.mp member
      exact continuesName_cleanedChar own
    rw [IsLabelName, toList_sanitize present, chars, List.map_cons, List.head?_cons]
    constructor
    · rintro ⟨_, _, same, begins, _⟩ c head
      cases same
      cases head
      exact beginsName_cleanedChar_iff.mp begins
    · intro noDigit
      exact ⟨_, _, rfl, beginsName_cleanedChar_iff.mpr (noDigit first rfl), others⟩

/-- What may stand in names may follow a name. -/
theorem IsLabelName.append {name rest : String} (label : IsLabelName name)
    (continues : ∀ c ∈ rest.toList, ContinuesName c)
    : IsLabelName (name ++ rest) := by
  obtain ⟨first, own, chars, begins, others⟩ := label
  refine ⟨first, own ++ rest.toList, ?_, begins, ?_⟩
  · rw [String.toList_append, chars, List.cons_append]
  · exact List.forall_mem_append.mpr ⟨others, continues⟩

end Label

namespace InternalLabels

open Label

theorem vocabulary_valid {name : String} (member : name ∈ vocabulary) : IsLabelName name := by
  have valid : ∀ name ∈ vocabulary, isValidName name = true := by decide
  exact isValidName_iff.mp (valid name member)

/-- A name that is written is valid, whatever key is cleaned for it. -/
theorem IsWritten.isLabelName {name : String} (written : IsWritten sanitize name)
    : IsLabelName name := by
  cases written with
  | fact known => exact vocabulary_valid known
  | label known key => exact (vocabulary_valid known).append (continues_sanitize key)

end InternalLabels

namespace Label

open InternalLabels

/-- The fragment of a text is never empty, all its characters may stand in names, and there is one
for each character of the text, or one if there is none. Cleaning it again leaves it as it is, and
it is the text itself exactly if the text was such a fragment. It is a name exactly if the text
does not begin with a digit, and behind a name it always makes a name. Hence assembly and the
envelope add only valid names to a set of labels.
-/
theorem sanitize_normalizes (text : String)
    : let fragment := sanitize text
      (fragment ≠ ""
        ∧ (∀ c ∈ fragment.toList, ContinuesName c)
        ∧ fragment.length = if text = "" then 1 else text.length)
      ∧ sanitize fragment = fragment
      ∧ (fragment = text ↔ text ≠ "" ∧ ∀ c ∈ text.toList, ContinuesName c)
      ∧ (IsLabelName fragment ↔ ¬∃ c ∈ text.toList.head?, '0' ≤ c ∧ c ≤ '9')
      ∧ (∀ name, IsLabelName name → IsLabelName (name ++ fragment))
      ∧ (∀ entry base,
          ∀ name ∈ (assemble entry base sanitize).names, name ∈ base.names ∨ IsLabelName name)
      ∧ ∀ push, ∀ name ∈ (ofPush push sanitize).names, IsLabelName name := by
  intro fragment
  have continues : ∀ c ∈ fragment.toList, ContinuesName c := continues_sanitize text
  have filled : fragment ≠ "" := sanitize_ne_empty text
  refine ⟨⟨filled, continues, length_sanitize text⟩, sanitize_eq_self_iff.mpr ⟨filled, continues⟩,
    sanitize_eq_self_iff, ?starts, fun name label => label.append continues, ?assembled, ?delivered⟩
  case starts =>
    rw [isLabelName_sanitize_iff]
    simp only [Relabel.IsDigit, not_exists, not_and]
  case assembled =>
    intro entry base name member
    exact (isWritten_of_mem_assemble member).imp_right IsWritten.isLabelName
  case delivered => exact fun push name member => (isWritten_of_mem_ofPush member).isLabelName

/-- A text that begins with a digit, with a letter that is not ASCII and a blank, makes a name
behind the name of a family only.
-/
theorem sanitize_normalizes_digit
    : sanitize "8-Größe é" = "8_Gr__e__"
      ∧ ¬IsLabelName (sanitize "8-Größe é")
      ∧ IsLabelName entryFamily
      ∧ IsLabelName (entryFamily ++ sanitize "8-Größe é") := by
  obtain ⟨_, _, _, starts, follows, _⟩ := sanitize_normalizes "8-Größe é"
  have family : IsLabelName entryFamily := by decide
  have digit : ∃ c ∈ "8-Größe é".toList.head?, '0' ≤ c ∧ c ≤ '9' :=
    ⟨'8', rfl, by decide, by decide⟩
  exact ⟨by decide +kernel, fun name => starts.mp name digit, family, follows entryFamily family⟩

end Label

end LogIntake
