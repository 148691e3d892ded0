import Restate.Json.Writer
import Restate.StatementKind

/-!
# Queries

What is run in SQLite: a statement with the parameters to bind. One MySQL statement becomes a list
of queries in the order in which they have to run.
-/

namespace Restate

/-- The statement of a query. -/
inductive Command where
  | sql (text : Text)
  /-- The setting for statements without effect, where it is something other than text. -/
  | setting (value : Json)
  deriving BEq

namespace Command

/-- The command a setting stands for. -/
def ofSetting : Json → Command
  | .str text => .sql text
  | value => .setting value

def toJson : Command → Json
  | .sql text => .str text
  | .setting value => value

/-- The command inside a script. -/
def text (command : Command) : Text :=
  command.toJson.inserted

end Command

/-- A statement and the parameters it names, in the order of their places. -/
structure Query where
  command : Command
  params : Fields Text

namespace Query

/-- A query without parameters. -/
def plain (sql : Text) : Query :=
  ⟨.sql sql, []⟩

def paramsJson (query : Query) : Json :=
  .obj (query.params.map fun (name, value) => (name, .str value))

/-- Whether the same parameters are bound to the same values, in whatever order. -/
def sameParams (p q : Fields Text) : Bool :=
  p.length == q.length && p.all fun (name, value) => q.get? name == some value

/-- Equal statements with equal parameters, in whatever order. -/
def same (p q : Query) : Bool :=
  p.command == q.command && sameParams p.params q.params

def shown (query : Query) : Text :=
  "ExecutedQuery(sql=" ++ query.command.toJson.shown ++ ", params=mappingproxy("
    ++ query.paramsJson.shown ++ "))"

end Query

end Restate
