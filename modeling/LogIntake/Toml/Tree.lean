import LogIntake.Toml.Value

/-! The tables of a document while it is read. A header or a key leads to a table along a
path, and tables on the way that do not exist yet come into being. How a table came into being
decides what may still be added to it.
-/

namespace LogIntake.Toml

/-- How a table came into being: by a header of its own, on the way to the table of another
header, or on the way along a key of several parts.
-/
inductive Origin where
  | header
  | implied
  | key
  deriving Repr, DecidableEq, Inhabited

/-- What stands under a key: a finished value, a table, or tables that headers list, the last
one first.
-/
inductive Node where
  | value (value : Toml)
  | table (origin : Origin) (entries : List (String × Node))
  | tables (items : List (List (String × Node)))
  deriving Repr, Inhabited

/-- The keys of a table with what stands under them, in order of appearance. -/
abbrev Entries :=
  List (String × Node)

/-- Replaces what stands under a key that is present. -/
def replaceNode (name : String) (node : Node) (entries : Entries) : Entries :=
  entries.map fun entry => if entry.1 = name then (name, node) else entry

/-- Changes the table at the end of a path. The first argument tells where the path stands: a
path of a header may pass through any table, a path of a key passes through no table that has a
header.
-/
def changeTable (way : Origin) (change : Origin → Entries → Except Fault Entries)
    : List String → Origin → Entries → Except Fault Entries
  | [], origin, entries => change origin entries
  | name :: path, _, entries =>
      match entries.lookup name with
      | none => do
          let inner ← changeTable way change path way []
          return entries ++ [(name, .table way inner)]
      | some (.value _) => .error .notATable
      | some (.table origin inner) =>
          if way = .key && origin = .header then .error .duplicateKey
          else do
            let inner ← changeTable way change path origin inner
            return replaceNode name (.table origin inner) entries
      | some (.tables []) => .error .notATable
      | some (.tables (last :: others)) => do
          let last ← changeTable way change path .header last
          return replaceNode name (.tables (last :: others)) entries

/-- Adds a value under the last part of a key. Only tables that keys brought into being accept
values from keys of several parts, and they accept no others.
-/
def addValue (isNested : Bool) (name : String) (value : Toml) (origin : Origin)
    (entries : Entries)
    : Except Fault Entries :=
  if decide (origin = .key) ≠ isNested then .error .duplicateKey
  else if (entries.lookup name).isSome then .error .duplicateKey
  else .ok (entries ++ [(name, .value value)])

/-- Stores a value under a key of one or several parts. -/
def storeValue (path : List String) (name : String) (value : Toml)
    : Origin → Entries → Except Fault Entries :=
  changeTable .key (addValue (!path.isEmpty) name value) path

/-- Opens the table of a header. A table that an earlier header implied gets its header now. -/
def openTable (name : String) (_ : Origin) (entries : Entries) : Except Fault Entries :=
  match entries.lookup name with
  | none => .ok (entries ++ [(name, .table .header [])])
  | some (.table .implied inner) => .ok (replaceNode name (.table .header inner) entries)
  | some _ => .error .duplicateKey

def appendTable (name : String) (_ : Origin) (entries : Entries) : Except Fault Entries :=
  match entries.lookup name with
  | none => .ok (entries ++ [(name, .tables [[]])])
  | some (.tables items) => .ok (replaceNode name (.tables ([] :: items)) entries)
  | some _ => .error .duplicateKey

mutual

def Node.toValue : Node → Toml
  | .value value => value
  | .table _ entries => .table (tableEntries entries)
  | .tables items => .array (tableItems items).reverse

def tableEntries : List (String × Node) → List (String × Toml)
  | [] => []
  | (name, node) :: rest => (name, node.toValue) :: tableEntries rest

def tableItems : List (List (String × Node)) → List Toml
  | [] => []
  | entries :: rest => .table (tableEntries entries) :: tableItems rest

end

end LogIntake.Toml
