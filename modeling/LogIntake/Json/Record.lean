import LogIntake.Json.Reader

/-! Reading records of named fields straight from the bytes of a document. Fields are
collected in a draft; a field may come once only, under any of its names, and members of
other names are passed over.
-/

namespace LogIntake.Json

/-- A field of a record: its names, the first of which errors report, whether a draft has it,
and how its value is read into a draft.
-/
structure RecordField (σ : Type) where
  name : String
  aliases : List String
  isSet : σ → Bool
  read : σ → Reader σ

/-- Whether a member's name is one of the names of the field. -/
def RecordField.isNamed {σ : Type} (field : RecordField σ) (name : String) : Bool :=
  name = field.name || field.aliases.contains name

/-- A kind of record: its description, its fields in the order of the list form, whether the
list form needs all of them, the draft before the first field, and what a draft amounts to.
-/
structure RecordKind (σ α : Type) where
  description : String
  fields : List (RecordField σ)
  complete : Bool
  start : σ
  finish : σ → Except DecodeError α

namespace RecordKind

variable {σ α : Type}

/-- Reads a member, from its colon on, into a draft. -/
def readMember (kind : RecordKind σ α) (draft : σ) (name : String) : Reader σ :=
  match kind.fields.find? fun field => field.isNamed name with
  | none => fun bytes => do
      let ((), bytes) ← memberValue skipValue bytes
      return (draft, bytes)
  | some field =>
      if field.isSet draft then fun _ => .error (.duplicateField field.name)
      else memberValue (field.read draft)

/-- The error for a list that ends before a field. -/
def shortList (kind : RecordKind σ α) (index : Nat) : DecodeError :=
  .invalidLength index s!"{kind.description} with {kind.fields.length} elements"

/-- Reads the fields of the list form, the first argument counting those before them. -/
def readFields (kind : RecordKind σ α) : Nat → List (RecordField σ) → σ → Reader σ
  | _, [], draft, bytes => .ok (draft, bytes)
  | index, field :: rest, draft, bytes => do
      let (filled, bytes) ← readElement? (index = 0) (field.read draft) bytes
      match filled with
      | some draft => readFields kind (index + 1) rest draft bytes
      | none =>
          if kind.complete then throw (kind.shortList index)
          else readFields kind (index + 1) rest draft bytes

def read (kind : RecordKind σ α) : Reader α :=
  readRecord kind.description
    (fun bytes => do
      let (draft, bytes) ← readMembers kind.start kind.readMember bytes
      let value ← kind.finish draft
      return (value, bytes))
    (fun bytes => do
      let (draft, bytes) ← kind.readFields 0 kind.fields kind.start bytes
      let value ← kind.finish draft
      return (value, bytes))

end RecordKind

end LogIntake.Json
