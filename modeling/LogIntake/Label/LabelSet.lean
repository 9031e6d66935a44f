import LogIntake.NameMap
import LogIntake.Text.Quoted

/-! The label set of the pipeline. An empty value stands for absence: storing one removes the
label, so no label of a set has an empty value.
-/

namespace LogIntake

/-- Where a label stands in the text form of a set. -/
def NameMap.labelText (entry : String × String) : String :=
  entry.1 ++ "=" ++ Text.Quoted.quote entry.2

/-- The text form of labels: names and quoted values between braces. -/
def NameMap.display (map : NameMap) : String :=
  "\x7b" ++ ", ".intercalate (map.entries.map NameMap.labelText) ++ "\x7d"

/-- Labels by name, none of them with an empty value. -/
structure LabelSet where
  map : NameMap
  nonempty : ∀ entry ∈ map.entries, entry.2 ≠ ""
  deriving DecidableEq, Repr

namespace LabelSet

def empty : LabelSet :=
  ⟨.empty, by simp [NameMap.empty]⟩

instance : Inhabited LabelSet :=
  ⟨empty⟩

def toList (labels : LabelSet) : List (String × String) :=
  labels.map.toList

def names (labels : LabelSet) : List String :=
  labels.map.names

def get? (labels : LabelSet) (name : String) : Option String :=
  labels.map.get? name

def value (labels : LabelSet) (name : String) : String :=
  (labels.get? name).getD ""

def contains (labels : LabelSet) (name : String) : Bool :=
  labels.map.contains name

def size (labels : LabelSet) : Nat :=
  labels.map.size

def isEmpty (labels : LabelSet) : Bool :=
  labels.map.isEmpty

def filter (labels : LabelSet) (keep : String → String → Bool) : LabelSet :=
  ⟨labels.map.filter keep, fun entry hmem => labels.nonempty entry (List.mem_filter.1 hmem).1⟩

def erase (labels : LabelSet) (name : String) : LabelSet :=
  labels.filter fun other _ => other ≠ name

/-- Gives a label a value; the empty value removes the label. -/
def set (labels : LabelSet) (name value : String) : LabelSet :=
  if h : value = "" then labels.erase name
  else
    ⟨labels.map.insert name value, fun entry hmem => by
      rcases mem_insertEntry hmem with rfl | hmem
      · exact h
      · exact labels.nonempty entry hmem⟩

def setAll (labels : LabelSet) (entries : List (String × String)) : LabelSet :=
  entries.foldl (fun labels entry => labels.set entry.1 entry.2) labels

/-- The set that a list of labels builds from left to right. -/
def ofList (entries : List (String × String)) : LabelSet :=
  empty.setAll entries

def display (labels : LabelSet) : String :=
  labels.map.display

end LabelSet

end LogIntake
