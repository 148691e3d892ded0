import Restate.Restatement

/-!
# Batches and scripts

A batch is restated statement by statement, up to the first that cannot be; what was found out until
then is kept. A script is written only for a batch that is restated as a whole: a header, then each
query with a line that shows its parameters.
-/

namespace Restate

/-- What one statement of a batch became. -/
structure BatchRow where
  statement : Text
  kind : StatementKind
  queries : Nat
  deriving DecidableEq

namespace BatchRow

def toJson (row : BatchRow) : Json :=
  .obj [("statement", .str row.statement), ("kind", .str row.kind.label),
    ("queries", .int row.queries)]

end BatchRow

/-- How restating a batch went: the notices, a row for each statement before the first that failed,
and all queries unless one failed. -/
structure BatchReport where
  notices : List Notice
  rows : List BatchRow
  outcome : Except Error (List Query)

namespace BatchReport

/-- A statement's part of the report in front of the rest. -/
def after (statement : Text) (first : Report (StatementKind × List Query))
    (rest : BatchReport) : BatchReport :=
  match first.outcome with
  | .error e => ⟨first.notices, [], .error e⟩
  | .ok (kind, queries) =>
    ⟨first.notices ++ rest.notices, ⟨statement, kind, queries.length⟩ :: rest.rows,
      rest.outcome.map (queries ++ ·)⟩

/-- The report on statements one after another. -/
def ofStatements (settings : Settings) : List Text → BatchReport
  | [] => ⟨[], [], .ok []⟩
  | statement :: more =>
    after statement (restateStatement settings statement) (ofStatements settings more)

/-- The report on a batch. A batch that is not made of tokens has no statements. -/
def ofBatch (settings : Settings) (batch : Text) : BatchReport :=
  match splitStatements batch with
  | .error e => ⟨[], [], .error e⟩
  | .ok statements => ofStatements settings statements

def queryCount (rows : List BatchRow) : Nat :=
  (rows.map BatchRow.queries).foldl (fun count queries => count + queries) 0

end BatchReport

namespace Script

def header : Text :=
  "-- Auto-translated from MySQL to SQLite\n-- Review carefully before executing\n\n"

/-- The line that shows the parameters of a query, if it has any. -/
def paramsLine (query : Query) : Text :=
  if query.params.isEmpty then []
  else "-- params: " ++ query.paramsJson.write .readable ++ "\n"

def entry (query : Query) : Text :=
  paramsLine query ++ query.command.text ++ ";\n\n"

def render (queries : List Query) : Text :=
  header ++ queries.flatMap entry

/-- What is written at once of an entry: the line of parameters, if there are any, and the rest. -/
def entryPieces (query : Query) : List Text :=
  (if query.params.isEmpty then [] else [paramsLine query]) ++ [query.command.text ++ ";\n\n"]

/-- The script in the pieces in which it is written. -/
def pieces (queries : List Query) : List Text :=
  header :: queries.flatMap entryPieces

end Script

end Restate
