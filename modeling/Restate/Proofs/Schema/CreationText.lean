import Restate.Schema.Table

/-!
# The texts of new tables and indexes

What a statement that creates a table or an index has to look like, told apart from how it is
rendered: the words before the names, with a blank between two of them, the columns of an index in
their order, and a line for each definition of a table. Main statements: a table and an index are
rendered as just that (`Table.render_eq_text`, `Index.render_eq_text`).
-/

namespace Restate

/-- Words with a blank between two neighbours. -/
def spaced : List Text → Text
  | [] => []
  | [word] => word
  | word :: next :: more => word ++ ' ' :: spaced (next :: more)

@[simp] theorem spaced_singleton (word : Text) : spaced [word] = word :=
  rfl

@[simp] theorem spaced_cons_cons (word next : Text) (more : List Text) :
    spaced (word :: next :: more) = word ++ ' ' :: spaced (next :: more) :=
  rfl

/-- The words of a statement that creates something, up to the name of what is created. -/
def creating (kind what : List Text) (ifNotExists : Bool) (name : Text) : List Text :=
  "CREATE".toList :: kind ++ what
    ++ (if ifNotExists then ["IF".toList, "NOT".toList, "EXISTS".toList] else [])
    ++ [quoteIdentifier name]

namespace IndexColumn

/-- A column in the list of an index: its name, and behind a blank its direction if it has one. -/
def text (column : IndexColumn) : Text :=
  match column.direction with
  | [] => bareOrQuoted column.name
  | direction => bareOrQuoted column.name ++ ' ' :: direction

theorem render_eq_text (column : IndexColumn) : column.render = column.text := by
  unfold render text
  cases column.direction with
  | nil => rfl
  | cons c direction => simp

end IndexColumn

namespace Index

/-- Columns in their order, with a comma between two neighbours. -/
def columnsText : List IndexColumn → Text
  | [] => []
  | [column] => column.text
  | column :: next :: more => column.text ++ ',' :: columnsText (next :: more)

/-- The statement that creates an index under its name, on its table, over its columns. -/
def text (index : Index) (ifNotExists : Bool) : Text :=
  spaced (creating (if index.unique then ["UNIQUE".toList] else []) ["INDEX".toList] ifNotExists
    index.fullName ++ ["ON".toList, quoteIdentifier index.table,
      '(' :: columnsText index.columns ++ [')']])

theorem columnsText_eq (columns : List IndexColumn) :
    columnsText columns = List.intercalate [','] (columns.map IndexColumn.render) := by
  fun_induction columnsText columns with
  | case1 => rfl
  | case2 column => simp [IndexColumn.render_eq_text, List.intercalate]
  | case3 column next more ih =>
      rw [ih, ← column.render_eq_text]
      simp [List.intercalate]

theorem render_eq_text (index : Index) (ifNotExists : Bool) :
    index.render ifNotExists = index.text ifNotExists := by
  unfold render text creating
  rw [columnsText_eq]
  cases index.unique <;> cases ifNotExists <;> simp

end Index

namespace Column

/-- A column in a new table: its quoted name, its type, and what it says besides, each behind a
blank. -/
def line (column : Column) : Text :=
  quoteIdentifier column.name ++ ' ' :: column.targetType
    ++ (match column.nullable with
        | none => []
        | some nullable => if nullable then " NULL" else " NOT NULL")
    ++ (column.default.map fun value => " DEFAULT ".toList ++ value).getD []
    ++ (if column.unique then " UNIQUE".toList else [])

/-- What marks the column that numbers itself. -/
def numberedMark (numbered : Bool) : Text :=
  if numbered then " PRIMARY KEY AUTOINCREMENT" else []

theorem render_eq_line (column : Column) (numbered : Bool) :
    column.render numbered = column.line ++ numberedMark numbered := by
  unfold render line numberedMark
  cases column.nullable with
  | none =>
      cases column.default <;> cases column.unique <;> cases numbered <;>
        simp [List.intercalate]
  | some nullable =>
      cases nullable <;> cases column.default <;> cases column.unique <;> cases numbered <;>
        simp [List.intercalate]

end Column

namespace Table

/-- Lines that are indented by four blanks, each behind a line end, with a comma behind all but the
last. No lines leave an empty one. -/
def indented : List Text → Text
  | [] => ['\n']
  | [line] => "\n    ".toList ++ line
  | line :: next :: more => "\n    ".toList ++ line ++ ',' :: indented (next :: more)

/-- The statement that creates a table with the given lines between its parentheses. -/
def text (temporary ifNotExists : Bool) (name : Text) (lines : List Text) : Text :=
  spaced (creating (if temporary then ["TEMPORARY".toList] else []) ["TABLE".toList] ifNotExists
    name ++ [['(']]) ++ indented lines ++ "\n)"

theorem indented_eq (lines : List Text) :
    indented lines =
      '\n' :: List.intercalate [',', '\n'] (lines.map fun line => "    ".toList ++ line) := by
  fun_induction indented lines with
  | case1 => rfl
  | case2 line => simp [List.intercalate]
  | case3 line next more ih =>
      rw [ih]
      simp [List.intercalate]

theorem render_eq_text (table : Table) :
    table.render = text table.temporary table.ifNotExists table.name table.lines := by
  unfold render text creating
  rw [indented_eq]
  cases table.temporary <;> cases table.ifNotExists <;> simp

/-- The statements for a table and its indexes. -/
theorem statements_eq_text (table : Table) :
    table.statements = text table.temporary table.ifNotExists table.name table.lines ::
      (distinctKeys [] table.keys).map fun index => index.text table.ifNotExists := by
  simp only [statements, render_eq_text, Index.render_eq_text]

/-- The line of a primary key that no column is by itself. -/
def keyLine (names : List Text) : Text :=
  "PRIMARY KEY (" ++ List.intercalate [',', ' '] (names.map quoteIdentifier) ++ ")"

/-- The lines of a table are those of its columns, and one more for a primary key that no column is
by itself. -/
theorem lines_eq (table : Table) :
    table.lines =
      table.columns.map (fun c => c.line ++ Column.numberedMark (table.isNumbered c)) ++
        if table.primaryKey.isEmpty || table.numbered?.isSome then [] else
          [keyLine table.primaryKey] := by
  simp only [lines, Column.render_eq_line]
  rfl

end Table

end Restate
