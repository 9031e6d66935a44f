import LogIntake.NameMap

/-! Name maps as partial functions. Each operation is described by the lookups after it, and
two maps with the same lookups are equal, so later arguments never open the list of entries.
-/

namespace LogIntake

variable {α : Type}

theorem lookup_cons_entry (key : String) (head : String × α) (tail : List (String × α))
    : (head :: tail).lookup key = if key = head.1 then some head.2 else tail.lookup key := by
  obtain ⟨name, value⟩ := head
  by_cases same : key = name
  · simp [same]
  · have test : (key == name) = false := beq_eq_false_iff_ne.mpr same
    simp [List.lookup_cons, test, same]

@[simp]
theorem lookup_insertEntry (name key : String) (value : α) (entries : List (String × α))
    : (insertEntry name value entries).lookup key
      = if key = name then some value else entries.lookup key := by
  -- No order is needed: a shadowed entry of the same name is never looked at.
  induction entries with
  | nil => simp [insertEntry, lookup_cons_entry]
  | cons head tail ih =>
      unfold insertEntry
      split
      case isTrue before => rw [lookup_cons_entry]
      case isFalse notBefore =>
        split
        case isTrue equal =>
          by_cases same : key = name <;> simp [lookup_cons_entry, same, ← equal]
        case isFalse different =>
          rw [lookup_cons_entry, lookup_cons_entry, ih]
          by_cases atHead : key = head.1
          · have other : key ≠ name := fun same => different (same.symm.trans atHead)
            rw [if_pos atHead, if_neg other, if_pos atHead]
          · rw [if_neg atHead, if_neg atHead]

/-- A filter on names leaves the lookups of the names it keeps, by induction on the entries. -/
theorem lookup_filter_names {keep : String → Bool} {key : String} (kept : keep key = true)
    (entries : List (String × α))
    : (entries.filter fun entry => keep entry.1).lookup key = entries.lookup key := by
  induction entries with
  | nil => rfl
  | cons head tail ih =>
      rw [List.filter_cons]
      by_cases same : key = head.1
      · rw [if_pos (same ▸ kept), lookup_cons_entry, lookup_cons_entry, if_pos same, if_pos same]
      · rw [lookup_cons_entry key head tail, if_neg same, ← ih]
        split
        · rw [lookup_cons_entry, if_neg same]
        · rfl

/-- Where all names of the entries are greater than a name, its lookup fails. -/
theorem lookup_eq_none_of_below {key : String} {entries : List (String × α)}
    (below : ∀ entry ∈ entries, key < entry.1)
    : entries.lookup key = none := by
  apply List.lookup_eq_none_iff.mpr
  intro entry member
  exact bne_iff_ne.mpr (String.ne_of_lt (below entry member))

/-- Names of an ascending list are unique, so it has the same lookups from behind, by induction on
the list.
-/
theorem lookup_reverse_of_ascending {key : String} {entries : List (String × α)}
    (ascending : entries.Pairwise fun left right => left.1 < right.1)
    : entries.reverse.lookup key = entries.lookup key := by
  induction entries with
  | nil => rfl
  | cons head tail ih =>
      obtain ⟨first, rest⟩ := List.pairwise_cons.mp ascending
      rw [List.reverse_cons, List.lookup_append, ih rest, lookup_cons_entry key head tail]
      by_cases same : key = head.1
      · have absent : tail.lookup key = none :=
          lookup_eq_none_of_below fun entry member => same ▸ first entry member
        rw [absent, if_pos same, lookup_cons_entry, if_pos same]
        rfl
      · simp [same, lookup_cons_entry]

/-- In a list with changed names, a lookup from behind finds the last of the entries whose name has
been changed to the one that is looked up, by induction on the list.
-/
theorem lookup_reverse_renamed (rename : String → String) {entries : List (String × α)}
    (ascending : entries.Pairwise fun left right => left.1 < right.1) {key : String} {value : α}
    (found : (entries.map fun entry => (rename entry.1, entry.2)).reverse.lookup key = some value)
    : ∃ source,
        (source, value) ∈ entries
        ∧ rename source = key
        ∧ ∀ entry ∈ entries, rename entry.1 = key → entry.1 = source ∨ entry.1 < source := by
  induction entries with
  | nil => cases found
  | cons head tail ih =>
      obtain ⟨first, rest⟩ := List.pairwise_cons.mp ascending
      rw [List.map_cons, List.reverse_cons, List.lookup_append] at found
      cases later : (tail.map fun entry => (rename entry.1, entry.2)).reverse.lookup key with
      | some other =>
          rw [later] at found
          obtain ⟨source, member, renamed, last⟩ := ih rest (later.trans found)
          refine ⟨source, List.mem_cons_of_mem _ member, renamed, ?_⟩
          intro entry among
          rcases List.mem_cons.mp among with rfl | behind
          · exact fun _ => .inr (first _ member)
          · exact last entry behind
      | none =>
          rw [later, Option.none_or, lookup_cons_entry] at found
          split at found
          case isTrue renamed =>
            cases found
            refine ⟨head.1, List.mem_cons_self, renamed.symm, ?_⟩
            intro entry among same
            rcases List.mem_cons.mp among with rfl | behind
            · exact .inl rfl
            · have absent := List.lookup_eq_none_iff.mp later (key, entry.2)
                (List.mem_reverse.mpr (List.mem_map.mpr ⟨entry, behind, by rw [same]⟩))
              simp at absent
          case isFalse => cases found

/-- In an ascending list a lookup finds exactly the entries, by induction on the list. -/
theorem mem_iff_lookup_of_ascending {name : String} {value : α} {entries : List (String × α)}
    (ascending : entries.Pairwise fun left right => left.1 < right.1)
    : (name, value) ∈ entries ↔ entries.lookup name = some value := by
  induction entries with
  | nil => simp
  | cons head tail ih =>
      obtain ⟨first, rest⟩ := List.pairwise_cons.mp ascending
      rw [lookup_cons_entry, List.mem_cons]
      by_cases same : name = head.1
      · have absent : (name, value) ∉ tail := by
          intro member
          exact String.ne_of_lt (first _ member) same.symm
        simp only [absent, or_false, if_pos same, Option.some.injEq, Prod.ext_iff]
        exact ⟨fun equal => equal.2.symm, fun equal => ⟨same, equal.symm⟩⟩
      · have other : (name, value) ≠ head := fun equal => same (congrArg Prod.fst equal)
        simp only [other, false_or, if_neg same, ih rest]

/-- Two ascending lists with the same lookups are the same list. Witness: both are sorted by
a strict order and hold the same entries.
-/
theorem eq_of_lookup_eq {left right : List (String × α)}
    (leftAscending : left.Pairwise fun left right => left.1 < right.1)
    (rightAscending : right.Pairwise fun left right => left.1 < right.1)
    (agree : ∀ name, left.lookup name = right.lookup name)
    : left = right := by
  have nodup {entries : List (String × α)}
      (ascending : entries.Pairwise fun left right => left.1 < right.1)
      : entries.Nodup := by
    refine ascending.imp ?_
    intro first second before same
    exact String.ne_of_lt before (congrArg Prod.fst same)
  have perm : left.Perm right := by
    refine (List.perm_ext_iff_of_nodup (nodup leftAscending) (nodup rightAscending)).mpr ?_
    rintro ⟨name, value⟩
    rw [mem_iff_lookup_of_ascending leftAscending, mem_iff_lookup_of_ascending rightAscending,
      agree name]
  refine perm.eq_of_pairwise ?_ leftAscending rightAscending
  intro first second _ _ before after
  exact absurd (String.lt_trans before after) (String.lt_irrefl first.1)

namespace NameMap

/-- An entry is exactly a lookup that succeeds. -/
theorem mem_entries_iff {map : NameMap} {name value : String}
    : (name, value) ∈ map.entries ↔ map.get? name = some value :=
  mem_iff_lookup_of_ascending map.ascending

theorem mem_names_iff {map : NameMap} {name : String}
    : name ∈ map.names ↔ ∃ value, map.get? name = some value := by
  simp only [← mem_entries_iff]
  constructor
  · intro member
    obtain ⟨⟨_, value⟩, entry, rfl⟩ := List.mem_map.mp member
    exact ⟨value, entry⟩
  · intro present
    obtain ⟨value, entry⟩ := present
    exact List.mem_map_of_mem entry

/-- A map is determined by its lookups. -/
theorem ext_get? {left right : NameMap} (agree : ∀ name, left.get? name = right.get? name)
    : left = right := by
  have entries := eq_of_lookup_eq left.ascending right.ascending agree
  cases left
  cases right
  simpa using entries

@[simp]
theorem get?_empty (name : String) : empty.get? name = none :=
  rfl

@[simp]
theorem get?_insert (map : NameMap) (name value key : String)
    : (map.insert name value).get? key = if key = name then some value else map.get? key :=
  lookup_insertEntry name key value map.entries

/-- Filtering keeps a lookup if its entry passes. Witness: entries of one name are unique, so
no second entry can come to light.
-/
@[simp]
theorem get?_filter (map : NameMap) (keep : String → String → Bool) (name : String)
    : (map.filter keep).get? name = (map.get? name).filter (keep name) := by
  apply Option.ext
  intro value
  rw [← mem_entries_iff, Option.filter_eq_some_iff, ← mem_entries_iff]
  simp [filter]

@[simp]
theorem get?_erase (map : NameMap) (name key : String)
    : (map.erase name).get? key = if key = name then none else map.get? key := by
  rw [erase, get?_filter]
  by_cases same : key = name
  · simp [same]
  · cases found : map.get? key <;> simp [same]

end NameMap

end LogIntake
