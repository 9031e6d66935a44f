import LogIntake.Toml.Tree
import Mathlib.Data.List.Nodup

/-! The tables that are open while a document is read. The way from the whole document to the table
at hand goes through one table for each part of a path, always the last one that was begun; whatever
changes at its end, the tables around it keep what they have.
-/

namespace LogIntake.Toml

/-- An open table inside another one: the entries before it, its name, and if the table is one of a
list, the tables before it in the list. The name is that of no earlier entry.
-/
structure Frame where
  before : Entries
  name : String
  listed : Option (List Entries)
  fresh : name ∉ before.map Prod.fst

/-- What stands under the name of an open table with these entries. -/
def Frame.node (frame : Frame) (inner : Entries) : Node :=
  match frame.listed with
  | none => .table .header inner
  | some others => .tables (inner :: others)

/-- All entries, if the table at the end of the way through open tables has these. -/
def plug : List Frame → Entries → Entries
  | [], inner => inner
  | frame :: way, inner => frame.before ++ [(frame.name, frame.node (plug way inner))]

/-- The path along open tables. -/
def pathOf (way : List Frame) : List String :=
  way.map Frame.name

theorem plug_append (way : List Frame) (frame : Frame) (inner : Entries)
    : plug (way ++ [frame]) inner
      = plug way (frame.before ++ [(frame.name, frame.node inner)]) := by
  induction way with
  | nil => rfl
  | cons first way ih => rw [List.cons_append, plug, plug, ih]

theorem lookup_append_of_fresh {before : Entries} {name : String}
    (fresh : name ∉ before.map Prod.fst) (node : Node)
    : (before ++ [(name, node)]).lookup name = some node := by
  induction before with
  | nil => simp
  | cons entry before ih =>
      obtain ⟨other, value⟩ := entry
      rw [List.map_cons, List.mem_cons, not_or] at fresh
      have different : (name == other) = false := by simpa using fresh.1
      rw [List.cons_append, List.lookup_cons, different]
      exact ih fresh.2

theorem lookup_eq_none_of_fresh {entries : Entries} {name : String}
    (fresh : name ∉ entries.map Prod.fst)
    : entries.lookup name = none := by
  refine List.lookup_eq_none_iff.mpr fun entry member => ?_
  have different : name ≠ entry.1 := fun same => fresh (same ▸ List.mem_map_of_mem member)
  simpa using different

theorem replaceNode_append_of_fresh {before : Entries} {name : String}
    (fresh : name ∉ before.map Prod.fst) (node node' : Node)
    : replaceNode name node' (before ++ [(name, node)]) = before ++ [(name, node')] := by
  have kept : replaceNode name node' before = before := by
    refine (List.map_congr_left fun entry member => ?_).trans (List.map_id before)
    have different : entry.1 ≠ name := fun same => fresh (same ▸ List.mem_map_of_mem member)
    exact if_neg different
  rw [replaceNode, List.map_append, ← replaceNode, kept]
  simp

/-- A change at the end of a path through open tables changes the table at its end, by induction on
the tables along it.
-/
theorem changeTable_plug (change : Origin → Entries → Except Fault Entries) (way : List Frame)
    (inner : Entries)
    : changeTable .implied change (pathOf way) .header (plug way inner)
      = (change .header inner).map (plug way) := by
  induction way with
  | nil =>
      cases changed : change .header inner <;>
        simp [pathOf, changeTable, plug, changed, Except.map]
  | cons frame way ih =>
      have found := lookup_append_of_fresh frame.fresh (frame.node (plug way inner))
      have replaced := replaceNode_append_of_fresh frame.fresh (frame.node (plug way inner))
      simp only [pathOf, List.map_cons, plug, changeTable, found]
      cases listed : frame.listed
      all_goals
        simp only [Frame.node, listed] at replaced ⊢
        change (changeTable .implied change (pathOf way) .header (plug way inner) >>= _) = _
        rw [ih]
        cases change .header inner with
        | error fault => rfl
        | ok changed => exact congrArg Except.ok (replaced _)

/-- A value is stored behind the entries of the table at the end of the path. -/
theorem storeValue_plug {name : String} {inner : Entries} (fresh : name ∉ inner.map Prod.fst)
    (value : Toml) (way : List Frame)
    : changeTable .implied (storeValue [] name value) (pathOf way) .header (plug way inner)
      = .ok (plug way (inner ++ [(name, .value value)])) := by
  have stored : storeValue [] name value .header inner = .ok (inner ++ [(name, .value value)]) := by
    simp [storeValue, changeTable, addValue, lookup_eq_none_of_fresh fresh]
  rw [changeTable_plug, stored]
  rfl

/-- A new table is opened at the end of the path. -/
theorem openTable_plug {name : String} {inner : Entries} (fresh : name ∉ inner.map Prod.fst)
    (way : List Frame)
    : changeTable .implied (openTable name) (pathOf way) .header (plug way inner)
      = .ok (plug (way ++ [⟨inner, name, none, fresh⟩]) []) := by
  have opened : openTable name .header inner = .ok (inner ++ [(name, .table .header [])]) := by
    rw [openTable, lookup_eq_none_of_fresh fresh]
  rw [changeTable_plug, opened, plug_append]
  rfl

/-- The entries of a table with the tables of a list at the end, if there are any. -/
def withListed (inner : Entries) (name : String) : List Entries → Entries
  | [] => inner
  | items => inner ++ [(name, .tables items)]

/-- The next table of a list is opened at the end of the path. -/
theorem appendTable_plug {name : String} {inner : Entries} (fresh : name ∉ inner.map Prod.fst)
    (items : List Entries) (way : List Frame)
    : changeTable .implied (appendTable name) (pathOf way) .header
        (plug way (withListed inner name items))
      = .ok (plug (way ++ [⟨inner, name, some items, fresh⟩]) []) := by
  have appended
      : appendTable name .header (withListed inner name items)
        = .ok (inner ++ [(name, .tables ([] :: items))]) := by
    cases items with
    | nil => rw [withListed, appendTable, lookup_eq_none_of_fresh fresh]
    | cons last others =>
        rw [withListed, appendTable, lookup_append_of_fresh fresh]
        · exact congrArg Except.ok (replaceNode_append_of_fresh fresh _ _)
        · nofun
  rw [changeTable_plug, appended, plug_append]
  rfl

-----------------------------------------------------------------------------------------
-- The values of entries
-----------------------------------------------------------------------------------------

theorem tableEntries_append (first second : Entries)
    : tableEntries (first ++ second) = tableEntries first ++ tableEntries second := by
  induction first with
  | nil => rfl
  | cons entry first ih =>
      rw [List.cons_append, tableEntries, tableEntries, ih]
      rfl

/-- Values as they stand in a table. -/
def valueNodes (entries : List (String × Toml)) : Entries :=
  entries.map fun entry => (entry.1, .value entry.2)

theorem tableEntries_valueNodes (entries : List (String × Toml))
    : tableEntries (valueNodes entries) = entries := by
  induction entries with
  | nil => rfl
  | cons entry entries ih =>
      rw [valueNodes, List.map_cons, tableEntries, ← valueNodes, ih, Node.toValue]

theorem names_valueNodes (entries : List (String × Toml))
    : (valueNodes entries).map Prod.fst = entries.map Prod.fst := by
  rw [valueNodes, List.map_map]
  rfl

end LogIntake.Toml
