import Restate.Schema.Cursor

/-!
# Indexes

An index of a table, over columns in order. Names of indexes are shared by a whole database in
SQLite, so the table's name and two underscores come before the key's.
-/

namespace Restate

/-- A column of an index, with a direction that may be empty. -/
structure IndexColumn where
  name : Text
  direction : Text
  deriving DecidableEq

structure Index where
  name : Text
  table : Text
  unique : Bool
  columns : List IndexColumn
  deriving DecidableEq

namespace IndexColumn

def render (column : IndexColumn) : Text :=
  if column.direction.isEmpty then bareOrQuoted column.name
  else bareOrQuoted column.name ++ " " ++ column.direction

end IndexColumn

namespace Index

/-- The name of the index of a key in the database. -/
def fullNameOf (table key : Text) : Text :=
  table ++ "__" ++ key

def fullName (index : Index) : Text :=
  fullNameOf index.table index.name

def render (index : Index) (ifNotExists : Bool) : Text :=
  "CREATE " ++ (if index.unique then "UNIQUE ".toList else []) ++ "INDEX "
    ++ (if ifNotExists then "IF NOT EXISTS ".toList else [])
    ++ quoteIdentifier index.fullName ++ " ON " ++ quoteIdentifier index.table
    ++ " (" ++ List.intercalate [','] (index.columns.map IndexColumn.render) ++ ")"

def renderDrop (table key : Text) : Text :=
  "DROP INDEX " ++ quoteIdentifier (fullNameOf table key)

end Index

namespace Reading

/-- One part of a key: a column, a length that is left out, and a direction. -/
def keyPart : Reading IndexColumn := do
  let name ← identifier
  if (← here).nextIs (·.isPunct "(") then
    match ← parenthesized with
    | [length] =>
      if length.kind = .number then keyDirection name else fail .keyPartLength
    | _ => fail .keyPartLength
  else keyDirection name
where
  /-- The direction behind a key column, after which the part ends. -/
  keyDirection (name : Text) : Reading IndexColumn := do
    let direction ← acceptWord ["ASC", "DESC"]
    match (← here).next? with
    | some t => fail (.keyPart t.text)
    | none => return ⟨name, (direction.map Token.upper).getD []⟩

/-- The columns of a key, given the tokens between its parentheses. -/
def keyColumns (tokens : List Token) : Except Error (List IndexColumn) :=
  (splitTopLevel "," tokens).mapM fun part => keyPart.run part

def indexOptions : List Text :=
  ["USING", "COMMENT", "KEY_BLOCK_SIZE", "VISIBLE", "INVISIBLE", "WITH", "PARSER"]

/-- One option of an index, which is left out. -/
def skipIndexOption : Reading Unit := do
  let option ← expectWord indexOptions
  if option.isWord ["VISIBLE", "INVISIBLE"] then return ()
  else
    if option.isWord ["WITH"] then
      let _ ← expectWord ["PARSER"]
    let _ ← acceptOperator "="
    let _ ← advance

/-- The options of an index up to the end, which are left out. -/
def skipIndexOptions : Reading Unit := do
  let _ ← gather skipIndexOption

/-- `USING` and the kind of index are passed where they stand. -/
def skipIndexKind : Reading Unit := do
  if (← acceptWord ["USING"]).isSome then
    let _ ← advance

/-- The columns of a key in parentheses. -/
def keyList : Reading (List IndexColumn) := do
  lift (keyColumns (← parenthesized))

/-- The name of a key, if one is given before its columns. -/
def keyName? : Reading (Option Text) := do
  match (← here).next? with
  | some t =>
    if t.isPunct "(" || t.isWord ["USING"] then return none else return some (← identifier)
  | none => return none

/-- A key behind the word that introduces it. Without a name, or with an empty one, it is named for
its first column. -/
def key (table : Text) (unique : Bool) : Reading Index := do
  let name ← keyName?
  skipIndexKind
  let columns ← keyList
  skipIndexOptions
  let first : Text := (columns.head?.map IndexColumn.name).getD []
  let name := name.getD []
  return ⟨if name.isEmpty then first else name, table, unique, columns⟩

end Reading

end Restate
