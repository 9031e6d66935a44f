/-! Finite maps from names to texts, kept as one list in ascending order of names.
Names compare by code points, so the order of the list is the order in which every consumer
visits and prints the map.
-/

namespace LogIntake

variable {α : Type}

/-- Places an entry into an ascending list, replacing the entry of the same name. -/
def insertEntry (name : String) (value : α) : List (String × α) → List (String × α)
  | [] => [(name, value)]
  | entry :: rest =>
      if name < entry.1 then (name, value) :: entry :: rest
      else if name = entry.1 then (name, value) :: rest
      else entry :: insertEntry name value rest

/-- What an insertion leaves is the new entry or one that was there before. -/
theorem mem_insertEntry {name : String} {value : α} {entry : String × α}
    {entries : List (String × α)} (h : entry ∈ insertEntry name value entries)
    : entry = (name, value) ∨ entry ∈ entries := by
  induction entries with
  | nil => simpa [insertEntry] using h
  | cons head tail ih =>
      unfold insertEntry at h
      split at h
      · simpa using h
      · split at h
        · rcases List.mem_cons.1 h with h | h
          · exact .inl h
          · exact .inr (List.mem_cons_of_mem _ h)
        · rcases List.mem_cons.1 h with h | h
          · exact .inr (by simp [h])
          · rcases ih h with h | h
            · exact .inl h
            · exact .inr (List.mem_cons_of_mem _ h)

theorem insertEntry_ascending {name : String} {value : α} {entries : List (String × α)}
    (h : entries.Pairwise fun left right => left.1 < right.1)
    : (insertEntry name value entries).Pairwise fun left right => left.1 < right.1 := by
  induction entries with
  | nil => simp [insertEntry]
  | cons head tail ih =>
      obtain ⟨hhead, htail⟩ := List.pairwise_cons.1 h
      unfold insertEntry
      split
      case isTrue hlt =>
        refine List.pairwise_cons.2 ⟨fun entry hmem => ?_, h⟩
        rcases List.mem_cons.1 hmem with rfl | hmem
        · exact hlt
        · exact String.lt_trans hlt (hhead entry hmem)
      case isFalse hlt =>
        split
        case isTrue heq =>
          exact List.pairwise_cons.2 ⟨fun entry hmem => heq ▸ hhead entry hmem, htail⟩
        case isFalse hne =>
          refine List.pairwise_cons.2 ⟨fun entry hmem => ?_, ih htail⟩
          rcases mem_insertEntry hmem with rfl | hmem
          · rcases String.le_total head.1 name with hle | hle
            · exact String.not_le.1 fun hge => hne (String.le_antisymm hge hle)
            · exact absurd (String.not_lt.1 hlt) fun hge => hne (String.le_antisymm hle hge)
          · exact hhead entry hmem

/-- Texts by name, in ascending order of names. -/
structure NameMap where
  entries : List (String × String)
  ascending : entries.Pairwise fun left right => left.1 < right.1
  deriving DecidableEq, Repr

namespace NameMap

def empty : NameMap :=
  ⟨[], .nil⟩

instance : Inhabited NameMap :=
  ⟨empty⟩

def toList (map : NameMap) : List (String × String) :=
  map.entries

def names (map : NameMap) : List String :=
  map.entries.map Prod.fst

def get? (map : NameMap) (name : String) : Option String :=
  map.entries.lookup name

def contains (map : NameMap) (name : String) : Bool :=
  (map.get? name).isSome

def size (map : NameMap) : Nat :=
  map.entries.length

def isEmpty (map : NameMap) : Bool :=
  map.entries.isEmpty

/-- Stores a value under a name, in place of any value it had. -/
def insert (map : NameMap) (name value : String) : NameMap :=
  ⟨insertEntry name value map.entries, insertEntry_ascending map.ascending⟩

def filter (map : NameMap) (keep : String → String → Bool) : NameMap :=
  ⟨map.entries.filter fun entry => keep entry.1 entry.2, map.ascending.filter _⟩

def erase (map : NameMap) (name : String) : NameMap :=
  map.filter fun other _ => other ≠ name

/-- The map that a list of entries builds from left to right; later values win. -/
def ofList (entries : List (String × String)) : NameMap :=
  entries.foldl (fun map entry => map.insert entry.1 entry.2) empty

/-- The first map overlaid with the second, whose values win. -/
def merge (base added : NameMap) : NameMap :=
  added.entries.foldl (fun map entry => map.insert entry.1 entry.2) base

end NameMap

end LogIntake
