import Restate.Proofs.Schema.NewTable
import Restate.Proofs.TopLevel

/-!
# The primary key of a new table

The primary key is declared by clauses or by the columns themselves. Main statement: where the names
of the columns differ, a new table carries its primary key once, at the column that numbers itself
or in a line of its own, and each column that asks for numbers and does not get them has a notice
(`restate_carriesKey`).
-/

namespace Restate

namespace Column

/-- The name in lower case, by which columns are told apart. -/
def lowerName (c : Column) : Text :=
  Text.lower c.name

/-- The column is the whole primary key, asks for automatic numbers and holds whole numbers. -/
def NumbersItself (names : List Text) (c : Column) : Prop :=
  names.map Text.lower = [c.lowerName] ∧ c.autoIncrement = true ∧ c.targetType = "integer".toList

instance (names : List Text) (c : Column) : Decidable (c.NumbersItself names) :=
  inferInstanceAs (Decidable (_ ∧ _ ∧ _))

end Column

namespace Table

/-- The names of the columns that ask to be the primary key. -/
def inlineNames (columns : List Column) : List Text :=
  (columns.filter Column.primaryKey).map Column.name

/-- The names of the primary key that is declared: those in clauses, and without any those of the
columns that ask for it. -/
def keyNames (definitions : List Definition) : List Text :=
  if (definitions.flatMap Definition.primaryNames).isEmpty then
    inlineNames (definitions.filterMap Definition.column?)
  else definitions.flatMap Definition.primaryNames

/-- How the lines of a table carry its primary key: at a column that numbers itself, in the last
line, or not at all if there is none. -/
inductive CarriesKey (columns : List Column) (names : List Text) : List Text → Prop where
  | numbered {before after : List Column} {c : Column} : columns = before ++ c :: after →
      c.NumbersItself names →
      CarriesKey columns names (before.map Column.line ++
        (c.line ++ " PRIMARY KEY AUTOINCREMENT") :: after.map Column.line)
  | line : names ≠ [] → (∀ c ∈ columns, ¬ c.NumbersItself names) →
      CarriesKey columns names (columns.map Column.line ++ [keyLine names])
  | missing : names = [] → CarriesKey columns names (columns.map Column.line)

/-- The definitions make a table: there is a column, not both clauses and columns declare the
primary key, and the clauses name columns. -/
structure MakesTable (definitions : List Definition) : Prop where
  hasColumn : definitions.filterMap Definition.column? ≠ []
  oneWay : definitions.flatMap Definition.primaryNames = [] ∨
    inlineNames (definitions.filterMap Definition.column?) = []
  known : ∀ name ∈ definitions.flatMap Definition.primaryNames,
    ∃ c ∈ definitions.filterMap Definition.column?, c.lowerName = Text.lower name

section Lookup

variable {columns : List Column} {name table : Text} {clauses names : List Text} {c : Column}

theorem column?_some (h : column? columns name = some c) :
    c ∈ columns ∧ c.lowerName = Text.lower name := by
  have hname := List.find?_some h
  exact ⟨List.mem_reverse.1 (List.mem_of_find?_eq_some h), eq_of_beq hname⟩

theorem column?_isNone_iff : (column? columns name).isNone = true ↔
    ¬ ∃ c ∈ columns, c.lowerName = Text.lower name := by
  unfold column?
  simp [Column.lowerName]

theorem column?_eq_some_iff (hdistinct : (columns.map Column.lowerName).Nodup) :
    column? columns name = some c ↔ c ∈ columns ∧ c.lowerName = Text.lower name := by
  constructor
  · exact column?_some
  · rintro ⟨hmem, hname⟩
    cases hfound : column? columns name with
    | none =>
        have hnone := column?_isNone_iff.1 (Option.isNone_iff_eq_none.2 hfound)
        exact (hnone ⟨c, hmem, hname⟩).elim
    | some d =>
        obtain ⟨hd, hdname⟩ := column?_some hfound
        rw [List.inj_on_of_nodup_map hdistinct hd hmem (hdname.trans hname.symm)]

theorem primaryKeyOf_ok_iff : primaryKeyOf table columns clauses = .ok names ↔
    (clauses = [] ∨ inlineNames columns = []) ∧
      (∀ name ∈ clauses, ∃ c ∈ columns, c.lowerName = Text.lower name) ∧
      names = if clauses.isEmpty then inlineNames columns else clauses := by
  have hinline : ∀ name ∈ inlineNames columns,
      ∃ c ∈ columns, c.lowerName = Text.lower name := by
    intro name hname
    obtain ⟨c, hc, rfl⟩ := List.mem_map.1 hname
    exact ⟨c, (List.mem_filter.1 hc).1, rfl⟩
  unfold primaryKeyOf
  rw [show (columns.filter Column.primaryKey).map Column.name = inlineNames columns from rfl]
  dsimp only
  split
  · next hboth =>
      refine iff_of_false nofun fun h => ?_
      simp only [Bool.and_eq_true, Bool.not_eq_true', List.isEmpty_eq_false_iff] at hboth
      exact h.1.elim hboth.1 hboth.2
  · next hboth =>
      have hway : clauses = [] ∨ inlineNames columns = [] := by
        rw [Bool.and_eq_true, not_and_or] at hboth
        simpa using hboth
      cases hfound : (if clauses.isEmpty then inlineNames columns else clauses).find?
        fun name => (column? columns name).isNone with
      | some name =>
          refine iff_of_false nofun fun h => ?_
          have hunknown := column?_isNone_iff.1
            (List.find?_some (p := fun name => (column? columns name).isNone) hfound)
          have hmem := List.mem_of_find?_eq_some hfound
          split at hmem
          · exact hunknown (hinline name hmem)
          · exact hunknown (h.2.1 name hmem)
      | none =>
          have hknown := List.find?_eq_none.1 hfound
          constructor
          · intro h
            refine ⟨hway, fun name hname => ?_, (Except.ok.inj h).symm⟩
            have hclauses : clauses.isEmpty = false := by
              simpa using List.ne_nil_of_mem hname
            rw [hclauses] at hknown
            exact not_not.1 fun hnot => hknown name hname (column?_isNone_iff.2 hnot)
          · rintro ⟨-, -, rfl⟩
            rfl

/-- What is made of the definitions, and when. -/
theorem ofDefinitions_ok_iff {head : TableHead} {definitions : List Definition} {t : Table} :
    ofDefinitions head definitions = .ok t ↔ MakesTable definitions ∧
      t = ⟨head.temporary, head.ifNotExists, head.name,
        definitions.filterMap Definition.column?, keyNames definitions,
        definitions.filterMap Definition.key?⟩ := by
  unfold ofDefinitions
  dsimp only
  split
  · next hempty =>
      refine iff_of_false nofun fun h => h.1.hasColumn ?_
      simpa using hempty
  · next hempty =>
      rw [except_map_ok]
      constructor
      · rintro ⟨names, hnames, rfl⟩
        obtain ⟨hway, hknown, rfl⟩ := primaryKeyOf_ok_iff.1 hnames
        exact ⟨⟨by simpa using hempty, hway, hknown⟩, rfl⟩
      · rintro ⟨hmakes, rfl⟩
        exact ⟨_, primaryKeyOf_ok_iff.2 ⟨hmakes.oneWay, hmakes.known, rfl⟩, rfl⟩

theorem MakesTable.known_keyNames {definitions : List Definition} (h : MakesTable definitions) :
    ∀ name ∈ keyNames definitions,
      ∃ c ∈ definitions.filterMap Definition.column?, c.lowerName = Text.lower name := by
  intro name hname
  unfold keyNames at hname
  split at hname
  · obtain ⟨c, hc, rfl⟩ := List.mem_map.1 hname
    exact ⟨c, (List.mem_filter.1 hc).1, rfl⟩
  · exact h.known name hname

end Lookup

section Numbering

variable {table : Table} {c : Column}

theorem numbered?_some {name : Text} (h : table.numbered? = some name) :
    ∃ c ∈ table.columns, c.name = name ∧ c.NumbersItself table.primaryKey := by
  unfold numbered? at h
  split at h
  · next key hkey =>
      split at h
      · next c hfound =>
          split at h
          · next hasks =>
              obtain ⟨hmem, hname⟩ := column?_some hfound
              refine ⟨c, hmem, Option.some.inj h, ?_, hasks.1, hasks.2⟩
              rw [hkey, hname]
              rfl
          · simp at h
      · simp at h
  · simp at h

/-- Where the names differ, a column is marked just if it numbers itself. -/
theorem isNumbered_iff (hdistinct : (table.columns.map Column.lowerName).Nodup)
    (hc : c ∈ table.columns) :
    table.isNumbered c = true ↔ c.NumbersItself table.primaryKey := by
  have hmarked : table.isNumbered c = true ↔ table.numbered? = some c.name := by
    simp [isNumbered]
  rw [hmarked]
  constructor
  · intro h
    obtain ⟨d, hd, hname, hnumbers⟩ := numbered?_some h
    obtain rfl := List.inj_on_of_nodup_map hdistinct hd hc (congrArg Text.lower hname)
    exact hnumbers
  · rintro ⟨hkey, hasks⟩
    obtain ⟨key, hprimary, hname⟩ := List.map_eq_singleton_iff.1 hkey
    have hfound := (column?_eq_some_iff hdistinct).2 ⟨hc, hname.symm⟩
    unfold numbered?
    rw [hprimary]
    dsimp only
    rw [hfound]
    exact if_pos hasks

/-- A column that is not marked has its plain line. -/
theorem line_of_not_numbered (h : table.isNumbered c = false) :
    c.line ++ Column.numberedMark (table.isNumbered c) = c.line := by
  rw [h]
  exact List.append_nil _

/-- Where no column numbers itself, a primary key has a line of its own. -/
theorem lines_unnumbered (hnone : ∀ c ∈ table.columns, ¬ c.NumbersItself table.primaryKey) :
    table.lines = table.columns.map Column.line ++
      if table.primaryKey.isEmpty then [] else [keyLine table.primaryKey] := by
  have hnumbered : table.numbered? = none := by
    rw [Option.eq_none_iff_forall_ne_some]
    intro name hname
    obtain ⟨c, hc, -, hnumbers⟩ := numbered?_some hname
    exact hnone c hc hnumbers
  have hplain : ∀ c, table.isNumbered c = false := by
    intro c
    rw [isNumbered, hnumbered]
    rfl
  rw [lines_eq, hnumbered, Option.isSome_none, Bool.or_false]
  simp only [line_of_not_numbered (hplain _)]

/-- Where the names differ, the column that numbers itself is the only one that is marked. -/
theorem lines_numbered {before after : List Column}
    (hdistinct : (table.columns.map Column.lowerName).Nodup)
    (hcolumns : table.columns = before ++ c :: after)
    (hnumbers : c.NumbersItself table.primaryKey) :
    table.lines =
      before.map Column.line ++ (c.line ++ " PRIMARY KEY AUTOINCREMENT") ::
        after.map Column.line := by
  have hmem : ∀ {d}, d ∈ before ∨ d = c ∨ d ∈ after → d ∈ table.columns := by
    intro d hd
    simpa [hcolumns] using hd
  have hmarked := (isNumbered_iff hdistinct (hmem (.inr (.inl rfl)))).2 hnumbers
  have hnumbered : table.numbered?.isSome = true := by
    rw [isNumbered, beq_iff_eq] at hmarked
    simp [hmarked]
  have hother : ∀ d, d ∈ before ∨ d ∈ after → table.isNumbered d = false := by
    intro d hd
    rw [← Bool.not_eq_true]
    intro hmark
    have hkey := ((isNumbered_iff hdistinct (hmem (hd.imp_right .inr))).1 hmark).1
    obtain ⟨hname, -⟩ := List.cons.inj (hnumbers.1.symm.trans hkey)
    rw [hcolumns, List.map_append, List.map_cons, List.nodup_middle, hname,
      ← List.map_append] at hdistinct
    exact (List.nodup_cons.1 hdistinct).1 (List.mem_map_of_mem (List.mem_append.2 hd))
  have hbefore : before.map (fun c => c.line ++ Column.numberedMark (table.isNumbered c)) =
      before.map Column.line :=
    List.map_congr_left fun d hd => line_of_not_numbered (hother d (.inl hd))
  have hafter : after.map (fun c => c.line ++ Column.numberedMark (table.isNumbered c)) =
      after.map Column.line :=
    List.map_congr_left fun d hd => line_of_not_numbered (hother d (.inr hd))
  rw [lines_eq, hnumbered, Bool.or_true, if_pos rfl, List.append_nil, hcolumns, List.map_append,
    List.map_cons, hbefore, hafter, hmarked]
  rfl

/-- Where the names differ, the lines of a table carry its primary key. -/
theorem carriesKey_lines (hdistinct : (table.columns.map Column.lowerName).Nodup) :
    CarriesKey table.columns table.primaryKey table.lines := by
  by_cases hsome : ∃ c ∈ table.columns, c.NumbersItself table.primaryKey
  · obtain ⟨c, hc, hnumbers⟩ := hsome
    obtain ⟨before, after, hcolumns⟩ := List.append_of_mem hc
    rw [lines_numbered hdistinct hcolumns hnumbers]
    exact .numbered hcolumns hnumbers
  · have hnone : ∀ c ∈ table.columns, ¬ c.NumbersItself table.primaryKey :=
      fun c hc hnumbers => hsome ⟨c, hc, hnumbers⟩
    rw [lines_unnumbered hnone]
    by_cases hkey : table.primaryKey = []
    · rw [if_pos (by simp [hkey]), List.append_nil]
      exact .missing hkey
    · rw [if_neg (by simpa using hkey)]
      exact .line hkey hnone

/-- The notices about numbers are those for the columns that ask for them and are not marked. -/
theorem numberingNotices_eq (hdistinct : (table.columns.map Column.lowerName).Nodup) :
    table.numberingNotices =
      (table.columns.filter fun c =>
        c.autoIncrement && !decide (c.NumbersItself table.primaryKey)).map fun c =>
          .droppedNumbering table.name c.name := by
  unfold numberingNotices
  congr 1
  refine List.filter_congr fun c hc => ?_
  rw [Bool.eq_iff_iff.2 ((isNumbered_iff hdistinct hc).trans (decide_eq_true_iff).symm)]

end Numbering

/-- The head of a statement that creates a table, and its definitions. -/
def declared (types : Fields Text) (sql : Text) : Except Error (TableHead × List Definition) := do
  let tokens ← tokenize sql
  let head ← Reading.tableHead.run (significant tokens)
  let definitions ← (readDefinitions types sql head.name (splitTopLevel "," head.body)).outcome
  return (head, definitions)

end Table

/-- A statement that creates a table carries the primary key that its definitions declare, whose
names are names of columns, and has a notice for each column that asks for numbers in vain. -/
theorem restate_carriesKey {settings : Settings} {tablePrefix sql : Text} {r : Restatement}
    (hrestate : (restate settings tablePrefix sql).outcome = .ok r)
    (hkind : r.kind = some .createTable) :
    ∃ (head : TableHead) (definitions : List Definition) (columns : List Column)
      (names lines : List Text),
      Table.declared settings.types sql = .ok (head, definitions) ∧
      List.Forall₂ (fun part => Declares settings.types sql head.name
          (Cursor.withoutSemicolon part))
        (splitTopLevel "," head.body) definitions ∧
      columns = definitions.filterMap Definition.column? ∧ names = Table.keyNames definitions ∧
      (∀ name ∈ names, ∃ c ∈ columns, c.lowerName = Text.lower name) ∧
      r.queries.head? =
        some (Query.plain (Table.text head.temporary head.ifNotExists head.name lines)) ∧
      ((columns.map Column.lowerName).Nodup →
        Table.CarriesKey columns names lines ∧
        (restate settings tablePrefix sql).notices =
          definitions.filterMap (Definition.notice? head.name) ++
            (columns.filter fun c => c.autoIncrement && !decide (c.NumbersItself names)).map
              fun c => .droppedNumbering head.name c.name) := by
  obtain ⟨tokens, statements, htokens, hrun, hqueries⟩ := restate_createTable_eq hrestate hkind
  obtain ⟨head, definitions, dropped, table, hhead, hread, htable, hnotices, rfl⟩ :=
    Table.restate_eq hrun
  obtain ⟨hmakes, htable⟩ := Table.ofDefinitions_ok_iff.1 htable
  obtain ⟨hdeclares, rfl⟩ := Table.readDefinitions_declares hread
  have hcolumns : definitions.filterMap Definition.column? = table.columns := by rw [htable]
  have hnames : Table.keyNames definitions = table.primaryKey := by rw [htable]
  have hname : head.name = table.name := by rw [htable]
  refine ⟨head, definitions, table.columns, table.primaryKey, table.lines, ?_,
    hdeclares.imp fun _ _ h => h.2, hcolumns.symm, hnames.symm, ?_, ?_,
    fun hdistinct => ⟨Table.carriesKey_lines hdistinct, ?_⟩⟩
  · unfold Table.declared
    simp only [htokens, hhead, hread, bind, Except.bind, pure, Except.pure]
  · rw [← hcolumns, ← hnames]
    exact hmakes.known_keyNames
  · rw [hqueries, Table.statements_eq_text, htable]
    rfl
  · rw [hnotices, Table.numberingNotices_eq hdistinct, hname]

/-- A clause in other case makes a column number itself, and another one loses its numbers. -/
theorem restate_carriesKey_numbered :
    ∃ settings r, Settings.load .builtIn = .ok settings ∧
      (restate settings [] "CREATE TABLE t (id BIGINT(20) UNSIGNED NOT NULL AUTO_INCREMENT,
        n INT AUTO_INCREMENT, PRIMARY KEY (`ID`))").outcome = .ok r ∧
      r.kind = some .createTable ∧
      ∃ (head : TableHead) (columns : List Column) (names lines : List Text),
        (columns.map Column.lowerName).Nodup ∧ names = ["ID".toList] ∧
        r.queries.head? =
          some (Query.plain (Table.text head.temporary head.ifNotExists head.name lines)) ∧
        Table.CarriesKey columns names lines ∧
        (columns.filter fun c => c.autoIncrement && !decide (c.NumbersItself names)).map
          Column.name = ["n".toList] := by
  obtain ⟨settings, hload, htest⟩ := exists_of_passes (show passes (fun settings =>
      passes (fun r => r.kind == some .createTable) (restate settings []
        "CREATE TABLE t (id BIGINT(20) UNSIGNED NOT NULL AUTO_INCREMENT,
        n INT AUTO_INCREMENT, PRIMARY KEY (`ID`))").outcome &&
      passes (fun said =>
          decide (((said.2.filterMap Definition.column?).map Column.lowerName).Nodup ∧
            Table.keyNames said.2 = ["ID".toList] ∧
            ((said.2.filterMap Definition.column?).filter fun c =>
              c.autoIncrement && !decide (c.NumbersItself (Table.keyNames said.2))).map
                Column.name = ["n".toList]))
        (Table.declared settings.types
        "CREATE TABLE t (id BIGINT(20) UNSIGNED NOT NULL AUTO_INCREMENT,
        n INT AUTO_INCREMENT, PRIMARY KEY (`ID`))"))
      (Settings.load .builtIn) = true by decide +kernel)
  obtain ⟨hrun, hdeclared⟩ := Bool.and_eq_true_iff.1 htest
  obtain ⟨r, hrestate, hkind⟩ := exists_of_passes hrun
  obtain ⟨said, hsaid, htest⟩ := exists_of_passes hdeclared
  obtain ⟨hdistinct, hnames, hlost⟩ := of_decide_eq_true htest
  obtain ⟨head, definitions, columns, names, lines, hreads, -, rfl, rfl, -, hquery, hcarries⟩ :=
    restate_carriesKey hrestate (eq_of_beq hkind)
  obtain rfl := Except.ok.inj (hreads.symm.trans hsaid)
  exact ⟨settings, r, hload, hrestate, eq_of_beq hkind, head, _, _, lines, hdistinct, hnames,
    hquery, (hcarries hdistinct).1, hlost⟩

end Restate
