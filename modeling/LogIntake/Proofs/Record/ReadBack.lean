import LogIntake.Proofs.Calendar.PrintedInstant
import LogIntake.Proofs.DataFormat.Rebuilding
import LogIntake.Proofs.Json.PrintedValue
import LogIntake.Proofs.Json.Storing
import LogIntake.Record

/-! Finished records, printed and read back as records. Reading checks every label name and the
instant again, and a record whose instant is printable passes both checks with all that it holds.
-/

namespace LogIntake

open Json Text.Utf8

-----------------------------------------------------------------------------------------
-- The fields of a record
-----------------------------------------------------------------------------------------

theorem spells_readTextAs (expected text : String)
    : Spells (readTextAs expected) (quoteText text) text := by
  intro rest _
  have quoted := encodeChars_quoteText text
  refine readTextAs_eq_ok_iff.mpr
    ⟨encodeChars (text.toList.flatMap escapeChar) ++ byteOf '"' :: rest, ?_, ?_⟩
  · rw [quoted, List.cons_append, List.append_assoc]
    rfl
  · exact readString_escaped text rest

/-- Texts by name are stored one by one, by induction on them. -/
theorem memberRow_readEntry (entries : List (String × String)) (map : NameMap)
    : MemberRow readEntry map
        ((entries.map fun entry => (entry.1, Json.str entry.2)).map compactMember)
        (entries.foldl (fun map entry => map.insert entry.1 entry.2) map) := by
  induction entries generalizing map with
  | nil => exact .nil map
  | cons entry entries ih =>
      have stored
          : Spells (readEntry map entry.1) (':' :: quoteText entry.2)
              (map.insert entry.1 entry.2) :=
        fun rest ends =>
          bind_eq_ok_iff.mpr ⟨_, (spells_readTextAs "a string" entry.2).afterColon rest ends, rfl⟩
      exact .cons stored (ih _)

/-- Texts by name are read back as the map whose entries they are. -/
theorem spells_readTextMap (map : NameMap)
    : Spells readTextMap (compactChars (.ofTexts map.entries)) map := by
  intro rest ends
  obtain ⟨inner, text, members⟩ :=
    exists_inner_compactChars_obj (memberRow_readEntry map.entries .empty) rest ends
  have own : map.entries.foldl (fun map entry => map.insert entry.1 entry.2) .empty = map :=
    map.ofList_entries
  rw [own] at members
  rw [readTextMap_eq, Json.ofTexts, text]
  exact readBraced_eq_ok_iff.mpr ⟨inner, rfl, members⟩

theorem spells_readLabels (labels : RecordLabels)
    : Spells RecordLabels.read (compactChars labels.toJson) labels := by
  intro rest ends
  refine bind_eq_ok_iff.mpr ⟨_, spells_readTextMap labels.map rest ends, ?_⟩
  exact bind_eq_ok_iff.mpr ⟨labels, mapError_eq_ok_iff.mpr labels.ofMap_map, rfl⟩

namespace Record

theorem spells_readTimestamp {instant : Calendar.Instant} (printable : instant.IsPrintable)
    : Spells readTimestamp (quoteText instant.text) instant := by
  intro rest ends
  have text : instant.text.toList = instant.chars := String.toList_ofList
  refine bind_eq_ok_iff.mpr ⟨_, spells_readTextAs _ _ rest ends, ?_⟩
  dsimp only
  rw [text, Calendar.readRelaxed_chars printable]
  rfl

theorem readable_toJson (record : Record) (depth : Nat)
    : Readable (depth + 2) record.toJson := by
  have labels : Readable (depth + 1) record.labels.toJson := by
    refine .obj fun member among => ?_
    obtain ⟨entry, _, rfl⟩ := List.mem_map.mp among
    exact .str depth entry.2
  refine .obj ?_
  simp only [List.forall_mem_cons]
  exact ⟨labels, .str _ _, .str _ _, nofun⟩

/-- A record as it is put together when its document is read. -/
theorem arranged_toJson (record : Record)
    : arranged record.toJson
      = .obj
          [("labels", record.labels.toJson), ("line", .str record.line),
            ("timestamp", .str record.timestamp.text)] := by
  have labels : record.labels.toJson.arranged = record.labels.toJson := by
    refine Ordered.arranged_eq (.obj (record.labels.map.ascending.map _ fun _ _ => id) ?_)
    intro member among
    obtain ⟨entry, _, rfl⟩ := List.mem_map.mp among
    exact .str entry.2
  have timestampLast : ¬"timestamp" < "labels" ∧ "timestamp" ≠ "labels" := by decide
  have lineBetween : (¬"line" < "labels" ∧ "line" ≠ "labels") ∧ "line" < "timestamp" := by decide
  simp only [toJson, arranged, arrangedMembers, labels, insertEntry, timestampLast, lineBetween,
    if_true, if_false]

/-- A member is read into a draft that lacks its field, by the reader of the field. -/
theorem spells_readMember {σ α : Type} {kind : RecordKind σ α} {field : RecordField σ}
    {name : String} {draft next : σ} {chars : List Char} (known : kind.field? name = some field)
    (fresh : ¬field.isSet draft = true) (spells : Spells (field.read draft) chars next)
    : Spells (kind.readMember draft name) (':' :: chars) next := by
  rw [RecordKind.readMember_known known fresh]
  exact spells.afterColon

/-- A record is read back from its document, if its instant is printable. -/
theorem decode_compact {record : Record} (printable : record.timestamp.IsPrintable)
    : decode (encode record.toJson.arranged.compact) = .ok record := by
  have labelsKnown : kind.field? "labels" = some kind.fields[0] := rfl
  have lineKnown : kind.field? "line" = some kind.fields[2] := rfl
  have timestampKnown : kind.field? "timestamp" = some kind.fields[1] := rfl
  have labels
      : Spells (kind.readMember kind.start "labels") (':' :: compactChars record.labels.toJson)
          ⟨some record.labels, none, none⟩ :=
    spells_readMember labelsKnown (by decide) fun rest ends =>
      bind_eq_ok_iff.mpr ⟨_, spells_readLabels record.labels rest ends, rfl⟩
  have line
      : Spells (kind.readMember ⟨some record.labels, none, none⟩ "line")
          (':' :: quoteText record.line) ⟨some record.labels, none, some record.line⟩ :=
    spells_readMember lineKnown nofun fun rest ends =>
      bind_eq_ok_iff.mpr ⟨_, spells_readTextAs _ record.line rest ends, rfl⟩
  have timestamp
      : Spells (kind.readMember ⟨some record.labels, none, some record.line⟩ "timestamp")
          (':' :: quoteText record.timestamp.text)
          ⟨some record.labels, some record.timestamp, some record.line⟩ :=
    spells_readMember timestampKnown nofun fun rest ends =>
      bind_eq_ok_iff.mpr ⟨_, spells_readTimestamp printable rest ends, rfl⟩
  have members
      : MemberRow kind.readMember kind.start
          ([("labels", record.labels.toJson), ("line", .str record.line),
            ("timestamp", .str record.timestamp.text)].map compactMember)
          ⟨some record.labels, some record.timestamp, some record.line⟩ :=
    .cons labels (.cons line (.cons timestamp (.nil _)))
  have spells : Spells kind.read (compactChars record.toJson.arranged) record := by
    intro rest ends
    obtain ⟨inner, text, read⟩ := exists_inner_compactChars_obj members rest ends
    rw [arranged_toJson, text]
    exact RecordKind.read_eq_ok_iff.mpr ⟨.object, inner, _, rfl, read, rfl⟩
  rw [decode, compact, encode_ofList]
  exact spells.document

end Record

end LogIntake
