import Restate.Proofs.Schema.WrittenForms

/-!
# One index in all its forms

Main statement: an index is created by one and the same statement, whether it is added to its table
in one way or another or defined with it, and dropped by its name (`restate_index`). As its clause
adds nothing else to a table, the statement for the table is the one for the table without it
(`Table.restate_one_key`). That holds of the statements as they are written
(`restate_writtenTable`) and of all others with such tokens (`CreatesTable.restate`).
-/

namespace Restate

namespace Table

variable {types : Fields Text} {sql name : Text} {part : List Token}
  {parts before after : List (List Token)} {definitions others : List Definition} {index : Index}

/-- The table that definitions make, where the statement says nothing else about it. -/
def plain (name : Text) (definitions : List Definition) : Table :=
  ⟨false, false, name, definitions.filterMap Definition.column?, keyNames definitions,
    definitions.filterMap Definition.key?⟩

theorem readDefinitions_cons_ok :
    (readDefinitions types sql name (part :: parts)).outcome = .ok definitions ↔
      part ≠ [] ∧ ∃ definition more, (Reading.definition types sql name).run part = .ok definition ∧
        (readDefinitions types sql name parts).outcome = .ok more ∧
        definition :: more = definitions := by
  by_cases hpart : part = []
  · subst hpart
    refine iff_of_false nofun fun h => h.1 rfl
  · rw [readDefinitions, if_neg (by simpa using hpart), Report.bind_ok]
    simp only [ne_eq, hpart, not_false_eq_true, true_and, Report.ofExcept]
    refine exists_congr fun definition => ?_
    cases definition with
    | dropped word => simp [Report.bind_ok, Report.notes, Report.pure_ok]
    | column | primaryKey | key => simp [Report.bind_ok, Report.pure_ok]

/-- The definitions before and behind a clause for a key are read as without it. -/
theorem readDefinitions_insert (hpart : part ≠ [])
    (hkey : (Reading.definition types sql name).run part = .ok (.key index))
    (hothers : (readDefinitions types sql name (before ++ after)).outcome = .ok others) :
    ∃ front back, others = front ++ back ∧
      (readDefinitions types sql name (before ++ part :: after)).outcome =
        .ok (front ++ .key index :: back) := by
  induction before generalizing others with
  | nil => exact ⟨[], others, rfl, readDefinitions_cons_ok.2 ⟨hpart, _, _, hkey, hothers, rfl⟩⟩
  | cons first before ih =>
      obtain ⟨hfirst, definition, more, hread, hmore, rfl⟩ := readDefinitions_cons_ok.1 hothers
      obtain ⟨front, back, rfl, hinsert⟩ := ih hmore
      exact ⟨definition :: front, back, rfl,
        readDefinitions_cons_ok.2 ⟨hfirst, _, _, hread, hinsert, rfl⟩⟩

section Insert

variable {front back : List Definition}

theorem column?_insert : (front ++ .key index :: back).filterMap Definition.column? =
    (front ++ back).filterMap Definition.column? := by
  rw [List.filterMap_append, List.filterMap_append]
  rfl

theorem primaryNames_insert : (front ++ .key index :: back).flatMap Definition.primaryNames =
    (front ++ back).flatMap Definition.primaryNames := by
  rw [List.flatMap_append, List.flatMap_append]
  rfl

theorem MakesTable.insert (h : MakesTable (front ++ back)) :
    MakesTable (front ++ .key index :: back) := by
  constructor
  · rw [column?_insert]
    exact h.hasColumn
  · rw [primaryNames_insert, column?_insert]
    exact h.oneWay
  · rw [primaryNames_insert, column?_insert]
    exact h.known

/-- A clause for a key makes no difference to the table, and its index comes behind the table. -/
theorem statements_insert (hkeys : (front ++ back).filterMap Definition.key? = []) :
    (plain name (front ++ .key index :: back)).statements =
      [text false false name (plain name (front ++ back)).lines, index.text false] := by
  have hkey : (front ++ .key index :: back).filterMap Definition.key? = [index] := by
    rw [List.filterMap_append, List.append_eq_nil_iff] at hkeys
    rw [List.filterMap_append, List.filterMap_cons_some (f := Definition.key?) (b := index) rfl,
      hkeys.1, hkeys.2, List.nil_append]
  have hnames : keyNames (front ++ .key index :: back) = keyNames (front ++ back) := by
    rw [keyNames, keyNames, primaryNames_insert, column?_insert]
  rw [statements_eq_text]
  unfold plain
  rw [column?_insert, hkey, hnames]
  rfl

end Insert

section Columns

variable {columns : List Column}

theorem lines_keyless {t : Table} (h : t.primaryKey = []) :
    t.lines = t.columns.map Column.line := by
  have hnone : ∀ c ∈ t.columns, ¬ c.NumbersItself t.primaryKey := by
    rintro c - ⟨hnames, -⟩
    simp [h] at hnames
  rw [lines_unnumbered hnone, h]
  exact List.append_nil _

theorem column?_columns :
    (columns.map Definition.column).filterMap Definition.column? = columns := by
  rw [List.filterMap_map]
  exact List.filterMap_some

theorem primaryNames_columns :
    (columns.map Definition.column).flatMap Definition.primaryNames = [] := by
  simp [Definition.primaryNames]

theorem key?_columns : (columns.map Definition.column).filterMap Definition.key? = [] := by
  simp [Definition.key?]

theorem makesTable_columns (h : columns ≠ []) : MakesTable (columns.map Definition.column) := by
  refine ⟨?_, .inl primaryNames_columns, ?_⟩
  · rwa [column?_columns]
  · simp [primaryNames_columns]

/-- Columns of which none is for the primary key make a table of just their lines. -/
theorem lines_plain (h : ∀ c ∈ columns, c.primaryKey = false) :
    (plain name (columns.map Definition.column)).lines = columns.map Column.line := by
  have hkeys : keyNames (columns.map Definition.column) = [] := by
    rw [keyNames, primaryNames_columns, column?_columns]
    simpa [inlineNames] using h
  have hlines := lines_keyless (t := plain name (columns.map Definition.column)) hkeys
  rwa [show (plain name (columns.map Definition.column)).columns = columns from
    column?_columns] at hlines

/-- Written columns are read as columns that look like them. -/
theorem readDefinitions_written {columns : List (WrittenColumn types)}
    (h : parts.map (·.map Token.unplaced) = columns.map WrittenColumn.tokens) :
    ∃ read : List Column,
      (readDefinitions types sql name parts).outcome = .ok (read.map Definition.column) ∧
      (∀ c ∈ read, c.primaryKey = false) ∧
      read.map Column.line = columns.map fun column => column.column.line := by
  induction columns generalizing parts with
  | nil =>
      obtain rfl := List.map_eq_nil_iff.1 h
      exact ⟨[], rfl, List.forall_mem_nil _, rfl⟩
  | cons column columns ih =>
      obtain ⟨part, parts, rfl, hpart, hparts⟩ := List.map_eq_cons_iff.1 h
      obtain ⟨source, hrun⟩ := @WrittenColumn.run_definition types column part sql name hpart
      obtain ⟨read, hread, hkeyless, hlines⟩ := ih hparts
      have hne : part ≠ [] := by
        rintro rfl
        cases hpart
      exact ⟨Column.bare column.name source column.target :: read,
        readDefinitions_cons_ok.2 ⟨hne, _, _, hrun, hread, rfl⟩,
        List.forall_mem_cons.2 ⟨rfl, hkeyless⟩, congrArg (_ :: ·) hlines⟩

end Columns

/-- A plain statement that creates a table with one key becomes the statement for the table without
it and the statement that creates the index. -/
theorem restate_one_key {tokens : List Token} (hname : index.name ≠ [])
    (h : CreatesTable index.table (before ++ part :: after) (Cursor.withoutSemicolon tokens))
    (hpart : DefinesIndex index (Cursor.withoutSemicolon part))
    (hothers : (readDefinitions types sql index.table (before ++ after)).outcome = .ok others)
    (hmakes : MakesTable others) (hkeys : others.filterMap Definition.key? = []) :
    (Table.restate types sql tokens).outcome =
      .ok [text false false index.table (plain index.table others).lines, index.text false] := by
  have hne : part ≠ [] := by
    rintro rfl
    exact hpart.ne_nil rfl
  obtain ⟨body, hbody, hhead⟩ := Reading.Yields.tableHead h
  have hkey : (Reading.definition types sql index.table).run part = .ok (.key index) :=
    (Reading.Yields.definition hname hpart).run
  -- the other definitions are read as before, wherever the clause stands among them
  obtain ⟨front, back, rfl, hread⟩ := readDefinitions_insert hne hkey hothers
  rw [← hbody] at hread
  rw [← statements_insert hkeys]
  exact restate_ok_iff.2 ⟨_, _, _, hhead.run, hread,
    ofDefinitions_ok_iff.2 ⟨hmakes.insert, rfl⟩, rfl⟩

end Table

theorem CreatesTable.ofSignificant {name : Text} {parts : List (List Token)} {tokens : List Token}
    (h : CreatesTable name parts (Cursor.withoutSemicolon tokens)) :
    StatementKind.ofSignificant tokens = .ok .createTable := by
  obtain ⟨last, htokens, -⟩ := Cursor.exists_append_withoutSemicolon tokens
  generalize Cursor.withoutSemicolon tokens = form at h htokens
  obtain @⟨create, word, named, body, group, options, hcreate, hword, hnamed, -, -, -⟩ := h
  rw [htokens]
  exact StatementKind.ofSignificant_of_words [create, word]
    (.cons hcreate (.cons hword .nil)) hnamed (by decide) (by decide)

section Statements

variable {settings : Settings} {tablePrefix sql : Text} {tokens : List Token} {index : Index}

theorem AddsIndex.restate (hname : index.name ≠ []) (htokens : tokenize sql = .ok tokens)
    (h : AddsIndex index (Cursor.withoutSemicolon (significant tokens))) :
    ∃ kind, (restate settings tablePrefix sql).outcome =
      .ok ⟨[Query.plain (index.text false)], some kind, tablePrefix⟩ := by
  obtain ⟨kind, hschema, hkind, hrestated⟩ := h.restated hname
  refine ⟨kind, ?_⟩
  rw [restate_of_schema tablePrefix htokens hkind hschema, hrestated, index.render_eq_text]
  rfl

theorem DropsIndex.restate {table key : Text} (htokens : tokenize sql = .ok tokens)
    (h : DropsIndex table key (Cursor.withoutSemicolon (significant tokens))) :
    (restate settings tablePrefix sql).outcome =
      .ok ⟨[Query.plain (Index.renderDrop table key)], some .dropIndex, tablePrefix⟩ := by
  obtain ⟨hkind, hrestated⟩ := h.restated
  rw [restate_of_schema tablePrefix htokens hkind (by decide), hrestated]
  rfl

theorem CreatesTable.restate {before after : List (List Token)} {part : List Token}
    {others : List Definition} (hname : index.name ≠ []) (htokens : tokenize sql = .ok tokens)
    (h : CreatesTable index.table (before ++ part :: after)
      (Cursor.withoutSemicolon (significant tokens)))
    (hpart : DefinesIndex index (Cursor.withoutSemicolon part))
    (hothers : (Table.readDefinitions settings.types sql index.table (before ++ after)).outcome =
      .ok others)
    (hmakes : Table.MakesTable others) (hkeys : others.filterMap Definition.key? = []) :
    (restate settings tablePrefix sql).outcome =
      .ok ⟨[Query.plain (Table.text false false index.table (Table.plain index.table others).lines),
        Query.plain (index.text false)], some .createTable, tablePrefix⟩ := by
  rw [restate_of_schema tablePrefix htokens h.ofSignificant (by decide), restateSchemaTokens,
    Table.restate_one_key hname h hpart hothers hmakes hkeys]
  rfl

/-- A written statement for a table with columns and the key becomes the statement for the table
with the columns and the statement that creates the index. -/
theorem restate_writtenTable {key : WrittenKey} {word : Text}
    {before after : List (WrittenColumn settings.types)} (hname : index.name ≠ [])
    (hkey : key.Writes index) (hword : word ∈ indexWords)
    (hcolumns : before ++ after ≠ []) :
    (restate settings tablePrefix (written (creatingForm index.table
      (before.map WrittenColumn.tokens ++ clauseTokens word index.unique key ::
        after.map WrittenColumn.tokens)))).outcome =
      .ok ⟨[Query.plain (Table.text false false index.table
          ((before ++ after).map fun column => column.column.line)),
        Query.plain (index.text false)], some .createTable, tablePrefix⟩ := by
  have hwritten : ∀ d ∈ before.map WrittenColumn.tokens ++ clauseTokens word index.unique key ::
      after.map WrittenColumn.tokens, (∀ t ∈ d, t.Spelled) ∧
        ∀ ts : List Token, ts.map Token.unplaced = d → Undivided "," ts := by
    simp only [List.forall_mem_append, List.forall_mem_cons, List.forall_mem_map]
    exact ⟨fun c _ => ⟨c.spelled, fun ts => WrittenColumn.undivided⟩,
      ⟨spelled_clauseTokens hword, fun ts hts => .definesIndex (definesIndex hkey hword hts)⟩,
      fun c _ => ⟨c.spelled, fun ts => WrittenColumn.undivided⟩⟩
  obtain ⟨tokens, parts, htokens, hparts, hcreates⟩ :=
    @createsTable_written index.table _ (by simp) (fun d hd => (hwritten d hd).1)
      fun d hd => (hwritten d hd).2
  obtain ⟨front, more, rfl, hfront, hmore⟩ := List.map_eq_append_iff.1 hparts
  obtain ⟨part, back, rfl, hpart, hback⟩ := List.map_eq_cons_iff.1 hmore
  have hclause : DefinesIndex index (Cursor.withoutSemicolon part) := by
    rw [Cursor.withoutSemicolon_of_spelled (spelled_clauseTokens hword) hpart]
    exact definesIndex hkey hword hpart
  -- without the clause there are the columns, and these are read as columns that look like them
  have hothers : (front ++ back).map (·.map Token.unplaced) =
      (before ++ after).map WrittenColumn.tokens := by
    rw [List.map_append, hfront, hback, List.map_append]
  obtain ⟨read, hread, hkeyless, hlines⟩ := Table.readDefinitions_written hothers
  have hne : read ≠ [] := by
    rintro rfl
    exact hcolumns (List.map_eq_nil_iff.1 hlines.symm)
  rw [hcreates.restate hname htokens hclause hread (Table.makesTable_columns hne)
    Table.key?_columns, Table.lines_plain hkeyless, hlines]

end Statements

end Restate
