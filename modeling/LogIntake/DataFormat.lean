import LogIntake.NameMap

/-! Decoding records of named fields from data of any format. A format says how its values
show themselves as texts, flags, numbers, lists and records; what a record means is said once
for all formats, by its fields.
-/

namespace LogIntake

/-- The two ways to write a record: its fields by name, or their values in the order in which
the record declares them.
-/
inductive RecordForm (ν : Type) where
  | named (members : List (String × ν))
  | listed (items : List ν)
  deriving Repr, Inhabited

/-- How the values of a format show themselves, with the errors for those that do not. -/
structure DataFormat (ν ε : Type) where
  text : ν → Except ε String
  flag : ν → Except ε Bool
  word : ν → Except ε Nat
  items : ν → Except ε (List ν)
  entries : ν → Except ε (List (String × ν))
  record : String → ν → Except ε (RecordForm ν)
  surplusItems : Nat → Option ε
  repeatedField : String → ε
  rejected : String → ε

/-- A field of a record: its name, and what a value does to the record. -/
structure Field (ν ε α : Type) where
  name : String
  store : α → ν → Except ε α

namespace DataFormat

variable {ν ε α β : Type}

/-- Stores named members from left to right. Unknown names are ignored, and no known name may
occur twice.
-/
def storeMembers (format : DataFormat ν ε) (fields : List (Field ν ε α))
    : List String → α → List (String × ν) → Except ε α
  | _, record, [] => .ok record
  | seen, record, (name, value) :: rest =>
      match fields.find? fun field => field.name = name with
      | none => storeMembers format fields seen record rest
      | some field =>
          if seen.contains name then .error (format.repeatedField name)
          else do
            let record ← field.store record value
            storeMembers format fields (name :: seen) record rest

/-- Stores listed values into the declared fields, as many as there are of both. -/
def storeItems : List (Field ν ε α) → α → List ν → Except ε α
  | field :: fields, record, value :: rest => do
      let record ← field.store record value
      storeItems fields record rest
  | _, record, _ => .ok record

/-- Decodes a record whose absent fields keep the values of a default. -/
def decodeRecord (format : DataFormat ν ε) (expected : String) (fields : List (Field ν ε α))
    (default : α) (value : ν)
    : Except ε α := do
  match ← format.record expected value with
  | .named members => storeMembers format fields [] default members
  | .listed items =>
      let record ← storeItems fields default items
      if fields.length < items.length then
        match format.surplusItems items.length with
        | some e => throw e
        | none => return record
      else return record

def decodeList (format : DataFormat ν ε) (decode : ν → Except ε β) (value : ν)
    : Except ε (List β) := do
  let items ← format.items value
  items.mapM decode

def decodeTexts (format : DataFormat ν ε) (value : ν) : Except ε NameMap := do
  let entries ← format.entries value
  entries.foldlM (fun map entry => do
    let text ← format.text entry.2
    return map.insert entry.1 text) .empty

end DataFormat

end LogIntake
