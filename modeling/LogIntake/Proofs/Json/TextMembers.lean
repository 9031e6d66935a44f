import LogIntake.Proofs.DataFormat.Rebuilding
import LogIntake.Proofs.Json.Storing
import Mathlib.Data.List.Forall2

/-! Objects of strings. A document reads as texts by name exactly if it is an object each of whose
members is a string, and the texts are those of the members, the last one of each name.
-/

namespace LogIntake.Json

/-- The member has the name of the entry, and its value is a string with the text of the entry. -/
def WritesText (member : WrittenMember) (entry : String × String) : Prop :=
  member.1 = entry.1 ∧ parse member.2 = .ok (.str entry.2)

/-- The document is an object of strings: its members write the entries, in this order. -/
def TextMembers (document : List UInt8) (entries : List (String × String)) : Prop :=
  ∃ members, objectMembers? document = some members ∧ List.Forall₂ WritesText members entries

-----------------------------------------------------------------------------------------
-- Strings among values
-----------------------------------------------------------------------------------------

/-- Among the values without brackets a string is what starts with a quote, by the cases in which
the first byte is looked at.
-/
theorem readScalar_eq_str_iff {byte : UInt8} {inner rest : List UInt8} {text : String}
    : readScalar (byte :: inner) = .ok (.str text, rest)
      ↔ byte = byteOf '"' ∧ readString inner = .ok (text, rest) := by
  constructor
  · intro done
    have other {α : Type} {result : Except FormError α} {make : α → Json × List UInt8}
        (noString : ∀ part, (make part).1 ≠ .str text)
        : result.map make ≠ .ok (.str text, rest) := by
      intro made
      cases result with
      | error fault => cases made
      | ok part => exact noString part (congrArg Prod.fst (Except.ok.inj made))
    simp only [readScalar] at done
    split at done
    · exact absurd done (other fun _ => Json.noConfusion)
    split at done
    · exact absurd done (other fun _ => Json.noConfusion)
    split at done
    · exact absurd done (other fun _ => Json.noConfusion)
    split at done
    case isTrue quote =>
      cases quoted : readString inner with
      | error fault => simp only [quoted, Except.map, reduceCtorEq] at done
      | ok read =>
          simp only [quoted, Except.map, Except.ok.injEq, Prod.mk.injEq, Json.str.injEq] at done
          obtain ⟨rfl, rfl⟩ := done
          exact ⟨quote, rfl⟩
    case isFalse =>
      split at done
      · exact absurd done (other fun _ => Json.noConfusion)
      split at done
      · exact absurd done (other fun _ => Json.noConfusion)
      · cases done
  · intro quoted
    obtain ⟨rfl, read⟩ := quoted
    have skipped
        : readScalar (byteOf '"' :: inner)
          = (readString inner).map fun read => (.str read.1, read.2) :=
      rfl
    rw [skipped, read]
    rfl

/-- A value is a string exactly if it reads as a text. -/
theorem readValue_eq_str_iff {depth : Nat} {bytes rest : List UInt8} {text : String}
    : readValue (depth + 1) bytes = .ok (.str text, rest)
      ↔ readText bytes = .ok (text, rest) := by
  rw [readText, readTextAs_eq_ok_iff, readValue]
  cases skipped : skipBlanks bytes with
  | nil => simp
  | cons byte inner =>
      have quoted
          : (∃ quoted,
              byte :: inner = byteOf '"' :: quoted ∧ readString quoted = .ok (text, rest))
            ↔ byte = byteOf '"' ∧ readString inner = .ok (text, rest) := by
        simp only [List.cons.injEq, and_assoc, exists_and_left, exists_eq_left']
      rw [quoted]
      by_cases list : byte = byteOf '['
      · subst list
        refine iff_of_false (fun done => ?_) fun quoted => absurd quoted.1 (by decide)
        simp only [if_true] at done
        split at done
        · cases done
        · obtain ⟨_, _, returned⟩ := bind_eq_ok_iff.mp done
          cases returned
      by_cases object : byte = byteOf '\x7b'
      · subst object
        refine iff_of_false (fun done => ?_) fun quoted => absurd quoted.1 (by decide)
        simp only [if_neg list, if_true] at done
        split at done
        · cases done
        · obtain ⟨_, _, returned⟩ := bind_eq_ok_iff.mp done
          cases returned
      simp only [if_neg list, if_neg object, formal_eq_ok_iff, readScalar_eq_str_iff]

theorem parse_eq_str_iff {bytes : List UInt8} {text : String}
    : parse bytes = .ok (.str text) ↔ readDocument readText bytes = .ok text := by
  rw [parse, readDocument_eq_ok_iff, readDocument_eq_ok_iff]
  simp only [maxDepth, readValue_eq_str_iff]

-----------------------------------------------------------------------------------------
-- Members in turn
-----------------------------------------------------------------------------------------

/-- Stores the text of a member under its name. -/
def storeText (map : NameMap) (member : WrittenMember) : Except DecodeError NameMap :=
  readDocument (readText.map (map.insert member.1)) member.2

/-- Reading a member off the bytes is storing it as it is written. -/
theorem readEntry_eq_ok_iff {map next : NameMap} {name : String}
    {colon text behind rest : List UInt8} (passed : passColon colon = .ok (text ++ behind))
    (spans : Spans .value (text ++ behind) behind)
    : readEntry map name colon = .ok (next, rest)
      ↔ rest = behind ∧ storeText map (name, text) = .ok next := by
  have same : readEntry map name = memberValue (readText.map (map.insert name)) := by
    funext bytes
    simp only [readEntry, memberValue, Reader.map, bind_assoc]
  have faithful := (readTextAs_faithful "a string").map (map.insert name)
  rw [same, memberValue_eq_ok_iff, passed]
  simp only [Except.ok.injEq, exists_eq_left']
  exact faithful.read_eq_ok_iff spans

/-- A text is stored exactly if the member writes it. -/
theorem storeText_eq_ok_iff {map next : NameMap} {member : WrittenMember}
    : storeText map member = .ok next
      ↔ ∃ entry, WritesText member entry ∧ next = map.insert entry.1 entry.2 := by
  simp only [storeText, readDocument_map_eq_ok_iff, ← parse_eq_str_iff]
  constructor
  · intro stored
    obtain ⟨text, read, rfl⟩ := stored
    exact ⟨(member.1, text), ⟨rfl, read⟩, rfl⟩
  · intro written
    obtain ⟨entry, ⟨name, read⟩, rfl⟩ := written
    exact ⟨entry.2, read, by rw [name]⟩

/-- Members are stored exactly if each of them is a string, by induction on the members. -/
theorem foldlM_storeText_eq_ok_iff {members : List WrittenMember} {map final : NameMap}
    : members.foldlM storeText map = .ok final
      ↔ ∃ entries : List (String × String),
          List.Forall₂ WritesText members entries
          ∧ final = entries.foldl (fun map entry => map.insert entry.1 entry.2) map := by
  induction members generalizing map with
  | nil => simp [pure, Except.pure, eq_comm]
  | cons member members ih =>
      rw [List.foldlM_cons, bind_eq_ok_iff]
      simp only [storeText_eq_ok_iff, ih, List.forall₂_cons_left_iff]
      constructor
      · intro stored
        obtain ⟨_, ⟨entry, written, rfl⟩, entries, others, rfl⟩ := stored
        exact ⟨entry :: entries, ⟨entry, entries, written, others, rfl⟩, rfl⟩
      · intro written
        obtain ⟨_, ⟨entry, entries, first, others, rfl⟩, rfl⟩ := written
        exact ⟨_, ⟨entry, first, rfl⟩, entries, others, rfl⟩

/-- Members are read into a map exactly if each of them is a string. -/
theorem foldMembers_readEntry_eq_ok_iff {bound : Nat} {first : Bool}
    {bytes rest after : List UInt8} {members : List WrittenMember}
    (written : Written bound first bytes members rest) {map final : NameMap}
    : foldMembers readEntry bound first map bytes = .ok (final, after)
      ↔ after = rest
        ∧ ∃ entries : List (String × String),
            List.Forall₂ WritesText members entries
            ∧ final = entries.foldl (fun map entry => map.insert entry.1 entry.2) map := by
  rw [foldMembers_eq_ok_iff_of_stored readEntry storeText readEntry_eq_ok_iff written,
    foldlM_storeText_eq_ok_iff]

/-- A document reads as a map of texts exactly if it is an object of strings, and the map is built
from them in turn.
-/
theorem readTextMap_document_eq_ok_iff {document : List UInt8} {map : NameMap}
    : readDocument readTextMap document = .ok map
      ↔ ∃ entries, TextMembers document entries ∧ map = NameMap.ofList entries := by
  have faithful (map : NameMap) (name : String) : FaithfulMember (readEntry map name) :=
    ((readTextAs_faithful "a string").weaken True).member.map (map.insert name)
  simp only [readTextMap_eq, readDocument_eq_ok_iff, readBraced_eq_ok_iff, TextMembers,
    objectMembers?_eq_some_iff, readWrittenMembers_eq_ok_iff]
  constructor
  · intro read
    obtain ⟨rest, ⟨inner, skipped, done⟩, blank⟩ := read
    obtain ⟨members, written⟩ := exists_written faithful done
    obtain ⟨_, entries, texts, rfl⟩ := (foldMembers_readEntry_eq_ok_iff written).mp done
    exact ⟨entries, ⟨members, ⟨rest, ⟨inner, skipped, written⟩, blank⟩, texts⟩, rfl⟩
  · intro written
    obtain ⟨entries, ⟨members, ⟨rest, ⟨inner, skipped, written⟩, blank⟩, texts⟩, rfl⟩ := written
    refine ⟨rest, ⟨inner, skipped, ?_⟩, blank⟩
    exact (foldMembers_readEntry_eq_ok_iff written).mpr ⟨rfl, entries, texts, rfl⟩

/-- The strings of an object are determined by its document. -/
theorem TextMembers.unique {document : List UInt8} {left right : List (String × String)}
    (leftMembers : TextMembers document left) (rightMembers : TextMembers document right)
    : left = right := by
  obtain ⟨members, written, leftTexts⟩ := leftMembers
  obtain ⟨others, writtenAgain, rightTexts⟩ := rightMembers
  obtain rfl := Option.some.inj (written.symm.trans writtenAgain)
  refine List.right_unique_forall₂' ?_ leftTexts rightTexts
  intro member entry other first second
  refine Prod.ext (first.1.symm.trans second.1) ?_
  exact Json.str.inj (Except.ok.inj (first.2.symm.trans second.2))

end LogIntake.Json
