import LogIntake.Proofs.Toml.OpenTables
import LogIntake.Proofs.Toml.PrintedValue

/-! Documents, read as they are printed. A piece of a document turns what was read before it into
what has been read behind it; pieces follow one another, so a document is read block by block, along
the tables that the writer went through.
-/

namespace LogIntake.Toml

-----------------------------------------------------------------------------------------
-- Pieces of a document
-----------------------------------------------------------------------------------------

/-- A piece of a document in front of any rest leads from one draft to another one. It has no more
statements than characters.
-/
def Reads (piece : List Char) (draft draft' : Draft) : Prop :=
  ∃ count ≤ piece.length, ∀ fuel rest,
    readStatements (fuel + count) draft (piece ++ rest) = readStatements fuel draft' rest

theorem Reads.nil (draft : Draft) : Reads [] draft draft :=
  ⟨0, le_rfl, fun _ _ => rfl⟩

theorem Reads.append {first second : List Char} {draft between draft' : Draft}
    (left : Reads first draft between) (right : Reads second between draft')
    : Reads (first ++ second) draft draft' := by
  obtain ⟨count, few, read⟩ := left
  obtain ⟨count', few', read'⟩ := right
  refine ⟨count + count', by rw [List.length_append]; omega, fun fuel rest => ?_⟩
  have whole : fuel + (count + count') = fuel + count' + count := by omega
  rw [whole, List.append_assoc, read, read']

/-- What a document starts with does not depend on a break before it. -/
theorem readStatements_lineBreak {c : Char} (start : IsStart c) (fuel : Nat) (draft : Draft)
    (rest : List Char)
    : readStatements fuel draft ('\n' :: c :: rest) = readStatements fuel draft (c :: rest) := by
  cases fuel with
  | zero => rfl
  | succ fuel =>
      have behindBreak := dropLayout_of_dropWhite start ('\n' :: c :: rest)
        (dropWhite_of_isStart start rest)
      rw [readStatements, readStatements, behindBreak, dropLayout_of_isStart start]

theorem Reads.lineBreak {c : Char} (start : IsStart c) {piece : List Char} {draft draft' : Draft}
    (reads : Reads (c :: piece) draft draft')
    : Reads ('\n' :: c :: piece) draft draft' := by
  obtain ⟨count, few, read⟩ := reads
  refine ⟨count, few.trans (Nat.le_succ _), fun fuel rest => ?_⟩
  rw [← read fuel rest]
  exact readStatements_lineBreak start _ _ _

/-- A statement on a line of its own. -/
theorem Reads.statement {c : Char} (start : IsStart c) {statement : List Char}
    {draft draft' : Draft}
    (taken
      : ∀ rest,
          takeStatement draft (c :: statement ++ '\n' :: rest) = .ok (draft', '\n' :: rest))
    : Reads (c :: statement ++ ['\n']) draft draft' := by
  refine ⟨1, by simp, fun fuel rest => ?_⟩
  have source : c :: statement ++ ['\n'] ++ rest = c :: (statement ++ '\n' :: rest) := by simp
  rw [source, readStatements, dropLayout_of_isStart start]
  dsimp only [bind, Except.bind]
  rw [← List.cons_append, taken]
  rfl

-----------------------------------------------------------------------------------------
-- Values under keys
-----------------------------------------------------------------------------------------

/-- A printed key starts a statement, and no header. -/
theorem exists_head_headerPath (name : String) (path : List String)
    : ∃ c more, (headerPath (name :: path)).toList = c :: more ∧ IsStart c ∧ c ≠ '[' := by
  obtain ⟨c, more, printed, own⟩ := exists_head_printKey name
  have start : IsStart c ∧ c ≠ '[' := by
    rcases own with bare | rfl | rfl
    · have other {d : Char} (noKey : isBareKeyChar d = false) : c ≠ d := by
        rintro rfl
        rw [noKey] at bare
        cases bare
      exact ⟨⟨other rfl, other rfl, other rfl, other rfl, other rfl, other rfl⟩, other rfl⟩
    · exact ⟨by simp [IsStart], by decide⟩
    · exact ⟨by simp [IsStart], by decide⟩
  cases path with
  | nil => exact ⟨c, more, by simp [headerPath, printed], start⟩
  | cons next path =>
      refine ⟨c, more ++ '.' :: (headerPath (next :: path)).toList, ?_, start⟩
      rw [toList_headerPath_cons_cons, printed, List.cons_append]

/-- A value under a key, on a line of its own. -/
def valueLine (entry : String × Toml) : List Char :=
  (headerPath [entry.1]).toList ++ ' ' :: '=' :: ' ' :: ((printValue entry.2).toList ++ ['\n'])

/-- The lines of values, as the writer joins them. -/
theorem toList_join_assignments (entries : List (String × Toml))
    : (String.join (assignments entries)).toList
      = (entries.filter fun entry => !hasHeader entry.2).flatMap valueLine := by
  have lines (entries : List (String × Toml))
      : ((printEntries entries).map (· ++ "\n")).flatMap String.toList
        = entries.flatMap valueLine := by
    induction entries with
    | nil => rfl
    | cons entry entries ih =>
        rw [printEntries, List.map_cons, List.flatMap_cons, List.flatMap_cons, ih]
        simp [valueLine, headerPath]
  rw [String.toList_join, assignments, lines]

/-- An assignment is taken if its value can be stored. -/
theorem takeAssignment_eq_ok {name : String} {value : Toml} (plain : IsPlain value)
    (draft : Draft) {entries : Entries}
    (stored
      : changeTable .implied (storeValue [] name value) draft.path .header draft.entries
        = .ok entries)
    (rest : List Char)
    : takeAssignment draft
        ((headerPath [name]).toList
          ++ ' ' :: '=' :: ' ' :: ((printValue value).toList ++ '\n' :: rest))
      = .ok ({ draft with entries }, '\n' :: rest) := by
  obtain ⟨c, more, printed, start⟩ := plain.exists_head
  let behind := (printValue value).toList ++ '\n' :: rest
  have noBare : ∀ c ∈ (' ' :: '=' :: ' ' :: behind).head?, isBareKeyChar c = false := by
    rintro _ ⟨⟩
    rfl
  have sign : (' ' :: '=' :: ' ' :: behind).dropWhile isSpace = '=' :: ' ' :: behind := rfl
  have value' : (' ' :: behind).dropWhile isSpace = behind := by
    simp [behind, isSpace, printed, start.1, start.2.1]
  have noPoint : ((' ' :: '=' :: ' ' :: behind).dropWhile isSpace).head? ≠ some '.' := by
    simp [sign]
  refine bind_eq_ok_iff.mpr
    ⟨_, takeKey_headerPath name [] noBare noPoint (Nat.zero_lt_succ _), ?_⟩
  rw [sign]
  change
    (takeValue (((' ' :: behind).dropWhile isSpace).length + 1) nestingLimit
      ((' ' :: behind).dropWhile isSpace) >>= _) = _
  rw [value']
  have enough : (printValue value).toList.length ≤ behind.length + 1 := by
    simp only [behind, List.length_append]
    omega
  have read := takeValue_printValue plain (.of_cons (.inl rfl) rest) enough 79
  exact bind_eq_ok_iff.mpr ⟨_, read, bind_eq_ok_iff.mpr ⟨_, stored, rfl⟩⟩

/-- A value is stored into the table that is open. -/
theorem reads_valueLine {name : String} {value : Toml} (plain : IsPlain value) {way : List Frame}
    {inner : Entries} (fresh : name ∉ inner.map Prod.fst)
    : Reads (valueLine (name, value)) ⟨plug way inner, pathOf way⟩
        ⟨plug way (inner ++ [(name, .value value)]), pathOf way⟩ := by
  obtain ⟨c, more, printed, start, noHeader⟩ := exists_head_headerPath name []
  have line
      : valueLine (name, value)
        = c :: (more ++ ' ' :: '=' :: ' ' :: (printValue value).toList) ++ ['\n'] := by
    simp [valueLine, printed]
  rw [line]
  refine .statement start fun rest => ?_
  have taken := takeAssignment_eq_ok plain ⟨plug way inner, pathOf way⟩
    (storeValue_plug fresh value way) rest
  rw [printed] at taken
  have statement
      : takeStatement ⟨plug way inner, pathOf way⟩
          (c :: (more ++ ' ' :: '=' :: ' ' :: ((printValue value).toList ++ '\n' :: rest)))
        = takeAssignment ⟨plug way inner, pathOf way⟩
            (c :: (more ++ ' ' :: '=' :: ' ' :: ((printValue value).toList ++ '\n' :: rest))) := by
    unfold takeStatement
    split
    next same => exact absurd (List.cons.inj same).1 noHeader
    next same => exact absurd (List.cons.inj same).1 noHeader
    next => rfl
  simpa [statement] using taken

/-- Values are stored one after the other, by induction on the entries. -/
theorem reads_valueLines {entries : List (String × Toml)}
    (plain : ∀ entry ∈ entries, IsPlain entry.2) (way : List Frame) {inner : Entries}
    (distinct : (inner.map Prod.fst ++ entries.map Prod.fst).Nodup)
    : Reads (entries.flatMap valueLine) ⟨plug way inner, pathOf way⟩
        ⟨plug way (inner ++ valueNodes entries), pathOf way⟩ := by
  induction entries generalizing inner with
  | nil =>
      rw [valueNodes, List.map_nil, List.append_nil]
      exact .nil _
  | cons entry entries ih =>
      obtain ⟨name, value⟩ := entry
      obtain ⟨first, others⟩ := List.forall_mem_cons.mp plain
      have fresh : name ∉ inner.map Prod.fst := fun member =>
        (List.nodup_append.mp distinct).2.2 name member name List.mem_cons_self rfl
      have left
          : ((inner ++ [(name, Node.value value)]).map Prod.fst ++ entries.map Prod.fst).Nodup := by
        simpa using distinct
      have rest := ih others left
      rw [List.append_assoc] at rest
      exact (reads_valueLine first fresh).append rest

-----------------------------------------------------------------------------------------
-- Headers
-----------------------------------------------------------------------------------------

/-- A header is taken if its table can be opened. -/
theorem takeHeader_eq_ok {path : List String} {name : String} (draft : Draft)
    {enter : String → Origin → Entries → Except Fault Entries} {entries : Entries}
    (entered : changeTable .implied (enter name) path .header draft.entries = .ok entries)
    (closing rest : List Char)
    : takeHeader draft (']' :: closing) enter
        ((headerPath (path ++ [name])).toList ++ ']' :: (closing ++ rest))
      = .ok (⟨entries, path ++ [name]⟩, rest) := by
  obtain ⟨first, others, whole⟩ : ∃ first others, path ++ [name] = first :: others :=
    List.exists_cons_of_ne_nil (by simp)
  have noBare : ∀ c ∈ (']' :: (closing ++ rest)).head?, isBareKeyChar c = false := by
    rintro _ ⟨⟩
    rfl
  have bracket : (']' :: (closing ++ rest)).dropWhile isSpace = ']' :: (closing ++ rest) := rfl
  have noPoint : ((']' :: (closing ++ rest)).dropWhile isSpace).head? ≠ some '.' := by
    simp [bracket]
  have enough := length_lt_of_headerPath first others (']' :: (closing ++ rest))
  have last : (path ++ [name]).getLastD "" = name := by simp
  unfold takeHeader
  rw [whole]
  dsimp only
  rw [dropWhile_isSpace_headerPath]
  refine bind_eq_ok_iff.mpr
    ⟨_, takeKey_headerPath first others noBare noPoint (Nat.lt_succ_of_lt enough), ?_⟩
  dsimp only
  rw [bracket, ← whole, last, List.dropLast_concat, ← List.cons_append, if_pos (by simp)]
  refine bind_eq_ok_iff.mpr ⟨_, entered, ?_⟩
  rw [List.drop_left]
  rfl

/-- The header of a table. -/
def tableHeader (path : List String) : List Char :=
  '[' :: ((headerPath path).toList ++ [']', '\n'])

/-- The header of a table in a list. -/
def rowHeader (path : List String) : List Char :=
  '[' :: '[' :: ((headerPath path).toList ++ [']', ']', '\n'])

theorem reads_tableHeader {name : String} {inner : Entries} (fresh : name ∉ inner.map Prod.fst)
    (way : List Frame) (path : List String)
    : Reads (tableHeader (pathOf way ++ [name])) ⟨plug way inner, path⟩
        ⟨plug (way ++ [⟨inner, name, none, fresh⟩]) [],
          pathOf (way ++ [⟨inner, name, none, fresh⟩])⟩ := by
  have path' : pathOf (way ++ [⟨inner, name, none, fresh⟩]) = pathOf way ++ [name] :=
    List.map_append
  have line
      : tableHeader (pathOf way ++ [name])
        = '[' :: ((headerPath (pathOf way ++ [name])).toList ++ [']']) ++ ['\n'] := by
    simp [tableHeader]
  rw [line, path']
  refine .statement (by simp [IsStart]) fun rest => ?_
  have taken := takeHeader_eq_ok ⟨plug way inner, path⟩ (openTable_plug fresh way) []
    ('\n' :: rest)
  obtain ⟨first, others, whole⟩ : ∃ first others, pathOf way ++ [name] = first :: others :=
    List.exists_cons_of_ne_nil (by simp)
  obtain ⟨c, more, printed, _, noHeader⟩ := exists_head_headerPath first others
  rw [whole, printed] at taken ⊢
  simpa [takeStatement, noHeader] using taken

theorem reads_rowHeader {name : String} {inner : Entries} (fresh : name ∉ inner.map Prod.fst)
    (items : List Entries) (way : List Frame) (path : List String)
    : Reads (rowHeader (pathOf way ++ [name])) ⟨plug way (withListed inner name items), path⟩
        ⟨plug (way ++ [⟨inner, name, some items, fresh⟩]) [],
          pathOf (way ++ [⟨inner, name, some items, fresh⟩])⟩ := by
  have path' : pathOf (way ++ [⟨inner, name, some items, fresh⟩]) = pathOf way ++ [name] :=
    List.map_append
  have line
      : rowHeader (pathOf way ++ [name])
        = '[' :: ('[' :: ((headerPath (pathOf way ++ [name])).toList ++ [']', ']'])) ++ ['\n'] := by
    simp [rowHeader]
  rw [line, path']
  refine .statement (by simp [IsStart]) fun rest => ?_
  have taken := takeHeader_eq_ok ⟨plug way (withListed inner name items), path⟩
    (appendTable_plug fresh items way) [']'] ('\n' :: rest)
  simpa [takeStatement] using taken

-----------------------------------------------------------------------------------------
-- Tables inside tables
-----------------------------------------------------------------------------------------

/-- A value that the writer can put into a document: on one line, as a table with distinct names, or
as a list of such tables.
-/
inductive IsTree : Toml → Prop
  | plain {value} (plain : IsPlain value) : IsTree value
  | table {entries} (distinct : (entries.map Prod.fst).Nodup)
    (inner : ∀ entry ∈ entries, IsTree entry.2) : IsTree (.table entries)
  | rows {tables : List (List (String × Toml))} (some : tables ≠ [])
    (each : ∀ entries ∈ tables, IsTree (.table entries)) : IsTree (.array (tables.map .table))

mutual

/-- A value with the entries of its tables in the order of a document: those on lines come first,
and then those with headers.
-/
def arranged : Toml → Toml
  | .table entries =>
      .table ((entries.filter fun entry => !hasHeader entry.2) ++ arrangedTables entries)
  | .array items => .array (arrangedItems items)
  | value => value

def arrangedTables : List (String × Toml) → List (String × Toml)
  | [] => []
  | (name, value) :: rest =>
      if hasHeader value then (name, arranged value) :: arrangedTables rest
      else arrangedTables rest

def arrangedItems : List Toml → List Toml
  | [] => []
  | item :: rest => arranged item :: arrangedItems rest

end

/-- The blocks of a document, each behind a blank line. -/
def blockLines (blocks : List String) : List Char :=
  blocks.flatMap fun block => '\n' :: block.toList

theorem IsPlain.hasHeader_eq_false {value : Toml} (plain : IsPlain value)
    : hasHeader value = false := by
  cases plain with
  | atom atom => cases atom <;> rfl
  | @array items atoms =>
      cases items with
      | nil => rfl
      | cons item items =>
          have atom := atoms item List.mem_cons_self
          cases atom <;> simp [hasHeader, isTable]

/-- A value without a header stands on one line. -/
theorem IsTree.isPlain {value : Toml} (tree : IsTree value) (noHeader : hasHeader value = false)
    : IsPlain value := by
  cases tree with
  | plain plain => exact plain
  | table _ _ => cases noHeader
  | @rows tables some _ =>
      cases tables with
      | nil => exact absurd rfl some
      | cons entries tables => simp [hasHeader, isTable] at noHeader

theorem printNested_of_noHeader {value : Toml} (noHeader : hasHeader value = false)
    (path : List String)
    : printNested path value = [] := by
  cases value with
  | table entries => cases noHeader
  | array items =>
      have noRows : ¬(!items.isEmpty && items.all isTable) = true :=
        Bool.not_eq_true _ ▸ noHeader
      rw [printNested, if_neg noRows]
  | _ => rfl

/-- What is read of a value under headers: the value, under its name in the table that is open. -/
def ReadsBlocks (value : Toml) : Prop :=
  hasHeader value = true →
    ∀ (way : List Frame) (inner : Entries) (name : String) (path : List String),
      name ∉ inner.map Prod.fst
      → ∃ node path',
          node.toValue = arranged value
          ∧ Reads (blockLines (printNested (pathOf way ++ [name]) value))
              ⟨plug way inner, path⟩ ⟨plug way (inner ++ [(name, node)]), path'⟩

/-- The tables of a table are read one after the other, by induction on its entries. -/
theorem reads_tables {entries : List (String × Toml)}
    (each : ∀ entry ∈ entries, ReadsBlocks entry.2) (way : List Frame) {inner : Entries}
    (path : List String)
    (distinct
      : (inner.map Prod.fst
          ++ (entries.filter fun entry => hasHeader entry.2).map Prod.fst).Nodup)
    : ∃ nodes path',
        tableEntries nodes = arrangedTables entries
        ∧ Reads (blockLines (printTables (pathOf way) entries)) ⟨plug way inner, path⟩
            ⟨plug way (inner ++ nodes), path'⟩ := by
  induction entries generalizing inner path with
  | nil => exact ⟨[], path, rfl, by rw [List.append_nil]; exact .nil _⟩
  | cons entry entries ih =>
      obtain ⟨name, value⟩ := entry
      obtain ⟨first, others⟩ := List.forall_mem_cons.mp each
      have blocks
          : blockLines (printTables (pathOf way) ((name, value) :: entries))
            = blockLines (printNested (pathOf way ++ [name]) value)
              ++ blockLines (printTables (pathOf way) entries) := by
        rw [printTables, blockLines, List.flatMap_append]
        rfl
      rw [blocks, arrangedTables]
      cases header : hasHeader value with
      | true =>
          rw [List.filter_cons_of_pos (by exact header)] at distinct
          have fresh : name ∉ inner.map Prod.fst := fun member =>
            (List.nodup_append.mp distinct).2.2 name member name List.mem_cons_self rfl
          obtain ⟨node, between, same, read⟩ := first header way inner name path fresh
          have left
              : ((inner ++ [(name, node)]).map Prod.fst
                  ++ (entries.filter fun entry => hasHeader entry.2).map Prod.fst).Nodup := by
            simpa using distinct
          obtain ⟨nodes, path', rest, readRest⟩ := ih others between left
          refine ⟨(name, node) :: nodes, path', ?_, ?_⟩
          · rw [tableEntries, same, rest, if_pos rfl]
          · rw [List.append_assoc] at readRest
            exact read.append readRest
      | false =>
          rw [List.filter_cons_of_neg (by simp [header])] at distinct
          rw [printNested_of_noHeader header]
          exact ih others path distinct

/-- The entries of the table that is open are read, those on lines and those with headers. -/
def ReadsEntries (entries : List (String × Toml)) : Prop :=
  ∀ way : List Frame,
    ∃ nodes path',
      .table (tableEntries nodes) = arranged (.table entries)
      ∧ Reads
          ((String.join (assignments entries)).toList
            ++ blockLines (printTables (pathOf way) entries))
          ⟨plug way [], pathOf way⟩ ⟨plug way nodes, path'⟩

theorem readsEntries_of_trees {entries : List (String × Toml)}
    (distinct : (entries.map Prod.fst).Nodup) (trees : ∀ entry ∈ entries, IsTree entry.2)
    (each : ∀ entry ∈ entries, ReadsBlocks entry.2)
    : ReadsEntries entries := by
  intro way
  let lines := entries.filter fun entry => !hasHeader entry.2
  have plain : ∀ entry ∈ lines, IsPlain entry.2 := by
    intro entry member
    obtain ⟨inEntries, noHeader⟩ := List.mem_filter.mp member
    exact (trees entry inEntries).isPlain (by simpa using noHeader)
  have linesDistinct : (([] : Entries).map Prod.fst ++ lines.map Prod.fst).Nodup :=
    distinct.sublist (List.filter_sublist.map _)
  have readLines := reads_valueLines plain way linesDistinct
  rw [List.nil_append] at readLines
  have tablesDistinct
      : ((valueNodes lines).map Prod.fst
          ++ (entries.filter fun entry => hasHeader entry.2).map Prod.fst).Nodup := by
    have same : (lines ++ entries.filter fun entry => hasHeader entry.2).Perm entries := by
      simpa [lines] using List.filter_append_perm (fun entry => !hasHeader entry.2) entries
    rw [names_valueNodes, ← List.map_append]
    exact (same.map Prod.fst).nodup_iff.mpr distinct
  obtain ⟨nodes, path', rest, readTables⟩ := reads_tables each way (pathOf way) tablesDistinct
  refine ⟨valueNodes lines ++ nodes, path', ?_, ?_⟩
  · rw [tableEntries_append, tableEntries_valueNodes, rest, arranged]
  · rw [toList_join_assignments]
    exact readLines.append readTables

/-- A table is read behind its header. -/
theorem ReadsEntries.table {entries : List (String × Toml)} (reads : ReadsEntries entries)
    : ReadsBlocks (.table entries) := by
  intro _ way inner name path fresh
  let frame : Frame := ⟨inner, name, none, fresh⟩
  obtain ⟨nodes, path', same, read⟩ := reads (way ++ [frame])
  refine ⟨.table .header nodes, path', same, ?_⟩
  have blocks
      : blockLines (printNested (pathOf way ++ [name]) (.table entries))
        = '\n' :: tableHeader (pathOf way ++ [name])
          ++ ((String.join (assignments entries)).toList
            ++ blockLines (printTables (pathOf (way ++ [frame])) entries)) := by
    have longer : pathOf (way ++ [frame]) = pathOf way ++ [name] := List.map_append
    simp [printNested, blockLines, tableHeader, longer]
  have header := (reads_tableHeader fresh way path).lineBreak (by simp [IsStart])
  rw [plug_append way frame nodes] at read
  rw [blocks]
  exact header.append read

theorem tableItems_cons_append (row : Entries) (rows : List Entries)
    : tableItems (rows ++ [row]) = tableItems rows ++ [.table (tableEntries row)] := by
  induction rows with
  | nil => rfl
  | cons first rows ih => rw [List.cons_append, tableItems, tableItems, ih]; rfl

/-- Tables of a list are read one after the other, by induction on them. -/
theorem reads_rows {tables : List (List (String × Toml))}
    (each : ∀ entries ∈ tables, ReadsEntries entries) (way : List Frame) {inner : Entries}
    {name : String} (fresh : name ∉ inner.map Prod.fst) (items : List Entries)
    (path : List String)
    : ∃ rows path',
        (tableItems rows).reverse = arrangedItems (tables.map .table)
        ∧ Reads (blockLines (printRows (pathOf way ++ [name]) (tables.map .table)))
            ⟨plug way (withListed inner name items), path⟩
            ⟨plug way (withListed inner name (rows ++ items)), path'⟩ := by
  induction tables generalizing items path with
  | nil => exact ⟨[], path, rfl, .nil _⟩
  | cons entries tables ih =>
      obtain ⟨first, others⟩ := List.forall_mem_cons.mp each
      let frame : Frame := ⟨inner, name, some items, fresh⟩
      obtain ⟨nodes, between, same, read⟩ := first (way ++ [frame])
      obtain ⟨rows, path', rest, readRest⟩ := ih others (nodes :: items) between
      have blocks
          : blockLines (printRows (pathOf way ++ [name]) ((entries :: tables).map .table))
            = '\n' :: rowHeader (pathOf way ++ [name])
              ++ (((String.join (assignments entries)).toList
                  ++ blockLines (printTables (pathOf (way ++ [frame])) entries))
                ++ blockLines (printRows (pathOf way ++ [name]) (tables.map .table))) := by
        have longer : pathOf (way ++ [frame]) = pathOf way ++ [name] := List.map_append
        simp [printRows, blockLines, rowHeader, longer]
      have header := (reads_rowHeader fresh items way path).lineBreak (by simp [IsStart])
      rw [plug_append way frame nodes] at read
      refine ⟨rows ++ [nodes], path', ?_, ?_⟩
      · rw [tableItems_cons_append, List.reverse_append, rest, List.map_cons, arrangedItems,
          ← same]
        rfl
      · rw [blocks, List.append_assoc rows [nodes] items]
        exact header.append (read.append readRest)

/-- Every tree is read as it is written, by induction on it. -/
theorem IsTree.reads {value : Toml} (tree : IsTree value)
    : ReadsBlocks value ∧ ∀ entries, value = .table entries → ReadsEntries entries := by
  induction tree with
  | plain plain =>
      refine ⟨fun header => ?_, fun entries same => ?_⟩
      · rw [plain.hasHeader_eq_false] at header
        cases header
      · subst same
        cases plain with
        | atom atom => cases atom
  | @table entries distinct inner ih =>
      have reads := readsEntries_of_trees distinct inner fun entry member => (ih entry member).1
      refine ⟨reads.table, fun _ same => ?_⟩
      cases same
      exact reads
  | @rows tables some each ih =>
      refine ⟨fun _ way inner name path fresh => ?_, nofun⟩
      obtain ⟨rows, path', same, read⟩ :=
        reads_rows (fun entries member => (ih entries member).2 entries rfl) way fresh [] path
      refine ⟨.tables rows, path', congrArg Toml.array same, ?_⟩
      have rowsExist : rows ≠ [] := by
        rintro rfl
        obtain ⟨entries, others, rfl⟩ := List.exists_cons_of_ne_nil some
        cases same
      have listed
          : (!(tables.map Toml.table).isEmpty && (tables.map Toml.table).all isTable) = true := by
        simp [some, isTable]
      obtain ⟨row, others, rfl⟩ := List.exists_cons_of_ne_nil rowsExist
      rw [List.append_nil] at read
      rw [printNested, if_pos listed]
      exact read

-----------------------------------------------------------------------------------------
-- Whole documents
-----------------------------------------------------------------------------------------

/-- Blocks with blank lines between them. -/
theorem lineBreak_intercalate_blocks (block : String) (blocks : List String)
    : '\n' :: ("\n".intercalate (block :: blocks)).toList = blockLines (block :: blocks) := by
  induction blocks generalizing block with
  | nil => simp [blockLines]
  | cons next blocks ih =>
      rw [String.intercalate_cons_cons, blockLines, List.flatMap_cons, ← blockLines, ← ih]
      simp

/-- The first block of a value is that of a header. -/
theorem blockLines_printNested (path : List String) (value : Toml)
    : blockLines (printNested path value) = []
      ∨ ∃ more, blockLines (printNested path value) = '\n' :: '[' :: more := by
  cases value with
  | table entries => exact .inr ⟨_, by simp [printNested, blockLines]; rfl⟩
  | array items =>
      rw [printNested]
      split
      next listed =>
        cases items with
        | nil => cases listed
        | cons item items =>
            cases item with
            | table entries => exact .inr ⟨_, by simp [printRows, blockLines]; rfl⟩
            | _ => simp [isTable] at listed
      next => exact .inl rfl
  | _ => exact .inl rfl

theorem blockLines_printTables (path : List String) (entries : List (String × Toml))
    : blockLines (printTables path entries) = []
      ∨ ∃ more, blockLines (printTables path entries) = '\n' :: '[' :: more := by
  induction entries with
  | nil => exact .inl rfl
  | cons entry entries ih =>
      obtain ⟨name, value⟩ := entry
      have parts
          : blockLines (printTables path ((name, value) :: entries))
            = blockLines (printNested (path ++ [name]) value)
              ++ blockLines (printTables path entries) := by
        rw [printTables, blockLines, List.flatMap_append]
        rfl
      rw [parts]
      rcases blockLines_printNested (path ++ [name]) value with none | ⟨more, first⟩
      · rw [none]
        exact ih
      · rw [first]
        exact .inr ⟨_, rfl⟩

/-- Nothing is read behind the end of a document. -/
theorem readStatements_nil (fuel : Nat) (draft : Draft)
    : readStatements fuel draft [] = .ok draft := by
  cases fuel <;> rfl

theorem noMark_of_isStart {c : Char} (start : IsStart c) : c.toNat ≠ 0xFEFF := by
  intro mark
  have same : c = '\uFEFF' := by rw [← Char.ofNat_toNat c, mark]
  exact start.2.2.2.2.2 same

/-- A document denotes the table that is read from it, with a blank line before it or without. -/
theorem Reads.parse_eq_ok {piece : List Char} {draft : Draft} (reads : Reads piece .empty draft)
    {document : String}
    (lines
      : document.toList = piece
        ∨ ∃ c more, document.toList = c :: more ∧ IsStart c ∧ piece = '\n' :: c :: more)
    (noMark : ∀ c ∈ document.toList.head?, IsStart c)
    : parse document = .ok (.table (tableEntries draft.entries)) := by
  have source : dropMark document.toList = document.toList := by
    cases chars : document.toList with
    | nil => rfl
    | cons c rest => exact if_neg (noMark_of_isStart (noMark c (by rw [chars]; rfl)))
  obtain ⟨count, few, read⟩ := reads
  have short : piece.length ≤ document.toList.length + 1 := by
    rcases lines with same | ⟨c, more, printed, _, rfl⟩
    · rw [same]
      exact Nat.le_succ _
    · rw [printed, List.length_cons]
  have same (fuel : Nat)
      : readStatements fuel .empty document.toList = readStatements fuel .empty piece := by
    rcases lines with same | ⟨c, more, printed, start, rfl⟩
    · rw [same]
    · rw [printed, readStatements_lineBreak start]
  have all := read (document.toList.length + 1 - count) []
  have bound : document.toList.length + 1 - count + count = document.toList.length + 1 := by omega
  rw [List.append_nil, readStatements_nil, bound, ← same] at all
  unfold parse
  rw [source]
  exact bind_eq_ok_iff.mpr ⟨draft, all, rfl⟩

/-- The lines of values start with a key, if there are any values. -/
theorem isStart_of_assignments {entries : List (String × Toml)}
    (values : assignments entries ≠ []) {rest : List Char} {c : Char}
    (first : c ∈ ((String.join (assignments entries)).toList ++ rest).head?)
    : IsStart c := by
  rw [toList_join_assignments] at first
  cases lines : entries.filter fun entry => !hasHeader entry.2 with
  | nil =>
      rw [assignments, lines] at values
      exact absurd rfl values
  | cons entry others =>
      obtain ⟨start, more, printed, isStart, _⟩ := exists_head_headerPath entry.1 []
      rw [lines, List.flatMap_cons, valueLine, printed] at first
      cases first
      exact isStart

/-- The text of a document: the lines of its values and then its blocks, but no blank line at the
front.
-/
theorem toList_documentText (entries : List (String × Toml))
    : (documentText entries).toList
      = if assignments entries = [] then (blockLines (printTables [] entries)).tail
        else (String.join (assignments entries)).toList ++ blockLines (printTables [] entries) := by
  unfold documentText
  cases values : assignments entries with
  | nil =>
      cases printTables [] entries with
      | nil => rfl
      | cons block blocks =>
          rw [if_pos rfl, ← lineBreak_intercalate_blocks]
          rfl
  | cons value others =>
      have whole := lineBreak_intercalate_blocks (String.join (value :: others))
        (printTables [] entries)
      rw [if_neg (by simp)]
      exact (List.cons.inj whole).2

/-- A document is read back as it was, with the values of each table before its tables. -/
theorem parse_documentText {entries : List (String × Toml)}
    (distinct : (entries.map Prod.fst).Nodup) (trees : ∀ entry ∈ entries, IsTree entry.2)
    : parse (documentText entries) = .ok (arranged (.table entries)) := by
  have each : ReadsEntries entries :=
    readsEntries_of_trees distinct trees fun entry member => (trees entry member).reads.1
  obtain ⟨nodes, path, same, reads⟩ := each []
  rw [← same]
  have text := toList_documentText entries
  by_cases values : assignments entries = []
  · rw [if_pos values] at text
    have noLines : (String.join (assignments entries)).toList = [] := by rw [values]; rfl
    rw [noLines, List.nil_append] at reads
    rcases blockLines_printTables [] entries with none | ⟨more, first⟩
    · rw [none, List.tail_nil] at text
      refine Reads.parse_eq_ok reads (.inl (text.trans none.symm)) ?_
      rw [text]
      nofun
    · rw [first, List.tail_cons] at text
      have start : IsStart '[' := by simp [IsStart]
      refine Reads.parse_eq_ok reads (.inr ⟨_, _, text, start, first⟩) ?_
      rw [text]
      rintro c ⟨⟩
      exact start
  · rw [if_neg values] at text
    refine Reads.parse_eq_ok reads (.inl text) fun c first => ?_
    rw [text] at first
    exact isStart_of_assignments values first

end LogIntake.Toml
