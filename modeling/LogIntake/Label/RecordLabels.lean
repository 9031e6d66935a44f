import LogIntake.Label.LabelSet
import LogIntake.Label.Name

/-! The labels of a finished record. Every name has passed the check for record names, so
internal labels cannot leave the pipeline; values may be empty.
-/

namespace LogIntake

open Label

/-- Labels by name, each name fit for a record. -/
structure RecordLabels where
  map : NameMap
  named : ∀ entry ∈ map.entries, isRecordName entry.1 = true
  deriving DecidableEq, Repr

namespace RecordLabels

def empty : RecordLabels :=
  ⟨.empty, by simp [NameMap.empty]⟩

instance : Inhabited RecordLabels :=
  ⟨empty⟩

def toList (labels : RecordLabels) : List (String × String) :=
  labels.map.toList

def names (labels : RecordLabels) : List String :=
  labels.map.names

def get? (labels : RecordLabels) (name : String) : Option String :=
  labels.map.get? name

def contains (labels : RecordLabels) (name : String) : Bool :=
  labels.map.contains name

def size (labels : RecordLabels) : Nat :=
  labels.map.size

def isEmpty (labels : RecordLabels) : Bool :=
  labels.map.isEmpty

def insertChecked (labels : RecordLabels) (name value : String)
    (h : isRecordName name = true)
    : RecordLabels :=
  ⟨labels.map.insert name value, fun entry hmem => by
    rcases mem_insertEntry hmem with rfl | hmem
    · exact h
    · exact labels.named entry hmem⟩

/-- Stores a label, unless its name is not fit for a record. -/
def insert (labels : RecordLabels) (name value : String)
    : Except NameError RecordLabels :=
  match h : checkRecordName name with
  | .ok () => .ok (labels.insertChecked name value (checkRecordName_eq_ok_iff.1 h))
  | .error e => .error e

/-- Stores a label if its name is fit for a record, and ignores it otherwise. -/
def insertIfNamed (labels : RecordLabels) (name value : String) : RecordLabels :=
  if h : isRecordName name = true then labels.insertChecked name value h else labels

/-- Stores labels from left to right; the first unfit name is the error. -/
def insertAll (labels : RecordLabels) (entries : List (String × String))
    : Except NameError RecordLabels :=
  entries.foldlM (fun labels entry => labels.insert entry.1 entry.2) labels

/-- The first labels overlaid with the second, whose values win. -/
def merge (base added : RecordLabels) : RecordLabels :=
  added.map.entries.foldl (fun labels entry => labels.insertIfNamed entry.1 entry.2) base

/-- Labels from a map, if every name is fit for a record; the first name that is not, in
ascending order, is the error.
-/
def ofMap (map : NameMap) : Except NameError RecordLabels :=
  insertAll empty map.entries

def display (labels : RecordLabels) : String :=
  labels.map.display

end RecordLabels

end LogIntake
