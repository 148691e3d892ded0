import Restate.Script

/-!
# Summaries of installations

What a batch became, counted by kind of statement, and the rows themselves as a file.
-/

namespace Restate

/-- A table of texts, as it is displayed. -/
structure TextTable where
  title : Text
  columns : List Text
  rows : List (List Text)
  deriving DecidableEq

namespace Summary

def kindsByName : List StatementKind :=
  [.alterAddColumn, .alterAddFulltextKey, .alterAddKey, .alterAddUniqueKey, .createIndex,
   .createTable, .delete, .dropIndex, .dropTable, .ignorable, .insert, .select, .transaction,
   .update]

def ofKind (rows : List BatchRow) (kind : StatementKind) : List BatchRow :=
  rows.filter fun row => row.kind == kind

/-- One line for each kind that occurs, with the number of its statements and of their queries. -/
def counts (rows : List BatchRow) : List (StatementKind × Nat × Nat) :=
  (kindsByName.map fun kind => (kind, (ofKind rows kind).length,
    BatchReport.queryCount (ofKind rows kind))).filter fun line => line.2.1 != 0

def table (rows : List BatchRow) : TextTable where
  title := "Schema Installation"
  columns := ["Kind", "Statements", "Queries"]
  rows := (counts rows).map fun (kind, statements, queries) =>
    [kind.label, Text.numeral statements, Text.numeral queries]

/-- The rows as the text of a JSON file. -/
def saved (rows : List BatchRow) : Text :=
  (Json.arr (rows.map BatchRow.toJson)).writeIndented 0

end Summary

end Restate
