import Restate.RowStatement
import Restate.Schema.Statement
import Restate.StatementKind.Classify
import Restate.Batch

/-!
# Restating statements

One MySQL statement becomes the queries that do the same in SQLite. Transaction control passes as it
is; statements without a meaning in SQLite become one that does nothing, and a notice says so.
-/

namespace Restate

/-- The queries one statement becomes. The table prefix is carried along for reports and changes no
query. -/
structure Restatement where
  queries : List Query
  kind : Option StatementKind
  tablePrefix : Text

namespace Restatement

/-- Queries from statements and their parameters. -/
def ofStatements (statements : List (Text × List (Text × Text))) (kind : Option StatementKind)
    (tablePrefix : Text) : Restatement :=
  ⟨statements.map fun (sql, params) => ⟨.sql sql, Fields.ofEntries params⟩, kind, tablePrefix⟩

/-- Whether two lists hold the same queries in the same order. -/
def sameQueries : List Query → List Query → Bool
  | [], [] => true
  | p :: ps, q :: qs => p.same q && sameQueries ps qs
  | _, _ => false

/-- Equal up to kind and table prefix. -/
def same (r s : Restatement) : Bool :=
  sameQueries r.queries s.queries

/-- The query at an index, which counts from the end if it is negative. -/
def query? (r : Restatement) (index : Int) : Option Query :=
  if 0 ≤ index then r.queries[index.toNat]?
  else if index.natAbs ≤ r.queries.length then r.queries[r.queries.length - index.natAbs]?
  else none

def shown (r : Restatement) : Text :=
  let kind : Text :=
    match r.kind with
    | some kind => Text.shown kind.label
    | none => "None"
  "TranslationResult(kind=" ++ kind ++ ", queries=["
    ++ List.intercalate [',', ' '] (r.queries.map Query.shown) ++ "])"

end Restatement

/-- The query for a statement on rows: its literals bound to parameters, its calls restated. An
error about a literal is not tied to the statement. -/
def rowQuery (settings : Settings) (kind : StatementKind) (sql : Text) (tokens : List Token) :
    Except Error Query := do
  let bound ← Parameter.extract settings.placeholderStem.inserted tokens
  let text ← (restateRows settings.functions kind bound.tokens).mapError (Error.about sql)
  return ⟨.sql text, bound.params⟩

def queriesOfKind (settings : Settings) (kind : StatementKind) (sql : Text)
    (tokens : List Token) : Report (List Query) :=
  match kind with
  | .transaction => pure [Query.plain sql]
  | .ignorable | .alterAddFulltextKey => do
    Report.notes [.ignored (Text.strip sql)]
    return [⟨Command.ofSetting settings.noop, []⟩]
  | .select | .insert | .update | .delete | .dropTable => do
    return [← Report.ofExcept (rowQuery settings kind sql tokens)]
  | .createTable | .createIndex | .alterAddColumn | .alterAddKey | .alterAddUniqueKey
  | .dropIndex => do
    return (← restateSchema settings.types kind sql tokens).map Query.plain

def readStatement (sql : Text) : Except Error (StatementKind × List Token) := do
  let tokens ← tokenize sql
  let kind ← (StatementKind.classify tokens).mapError (Error.about sql)
  return (kind, tokens)

/-- What a statement does, and the queries that do the same in SQLite. -/
def restateStatement (settings : Settings) (sql : Text) :
    Report (StatementKind × List Query) := do
  let (kind, tokens) ← Report.ofExcept (readStatement sql)
  return (kind, ← queriesOfKind settings kind sql tokens)

/-- The queries that do in SQLite what a MySQL statement does. -/
def restate (settings : Settings) (tablePrefix : Text) (sql : Text) : Report Restatement := do
  let (kind, queries) ← restateStatement settings sql
  return ⟨queries, some kind, tablePrefix⟩

end Restate
