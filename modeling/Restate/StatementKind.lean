import Restate.Text.Basic

/-!
# Kinds of statements

What a statement does decides how it is restated for SQLite.
-/

namespace Restate

/-- What a statement does. -/
inductive StatementKind where
  | createTable
  | createIndex
  | alterAddColumn
  | alterAddKey
  | alterAddUniqueKey
  | alterAddFulltextKey
  | dropIndex
  | dropTable
  | select
  | insert
  | update
  | delete
  | transaction
  | ignorable
  deriving DecidableEq, Repr

namespace StatementKind

def all : List StatementKind :=
  [.createTable, .createIndex, .alterAddColumn, .alterAddKey, .alterAddUniqueKey,
   .alterAddFulltextKey, .dropIndex, .dropTable, .select, .insert, .update, .delete,
   .transaction, .ignorable]

/-- The name of a kind in results and summaries. -/
def label : StatementKind → Text
  | .createTable => "create_table"
  | .createIndex => "create_index"
  | .alterAddColumn => "alter_add_column"
  | .alterAddKey => "alter_add_key"
  | .alterAddUniqueKey => "alter_add_unique_key"
  | .alterAddFulltextKey => "alter_add_fulltext_key"
  | .dropIndex => "drop_index"
  | .dropTable => "drop_table"
  | .select => "select"
  | .insert => "insert"
  | .update => "update"
  | .delete => "delete"
  | .transaction => "transaction"
  | .ignorable => "ignorable"

def ofLabel? (name : Text) : Option StatementKind :=
  all.find? fun kind => kind.label == name

/-- Every kind is found by its name. -/
theorem ofLabel?_label (kind : StatementKind) : ofLabel? kind.label = some kind := by
  cases kind <;> decide

end StatementKind

end Restate
