import Restate.Notice
import Restate.Schema.Column
import Restate.Schema.Index

/-!
# Tables

A `CREATE TABLE` statement is read definition by definition. Its keys leave the statement: each
becomes an index of its own, created after the table, with a name that is still free. Of the primary
key, a lone whole-number column that numbers itself is marked at the column; any other primary key
stays a line of its own.
-/

namespace Restate

/-- One definition between the commas of a new table. -/
inductive Definition where
  | column (column : Column)
  | primaryKey (names : List Text)
  | key (index : Index)
  /-- A full-text or spatial key, which is left out. -/
  | dropped (word : Text)

namespace Definition

def column? : Definition → Option Column
  | .column c => some c
  | _ => none

/-- The key, if one other than the primary key is defined. -/
def key? : Definition → Option Index
  | .key index => some index
  | _ => none

/-- The columns a primary key clause names. -/
def primaryNames : Definition → List Text
  | .primaryKey names => names
  | _ => []

end Definition

/-- What a `CREATE TABLE` statement says before its definitions, and the tokens of those. -/
structure TableHead where
  temporary : Bool
  ifNotExists : Bool
  name : Text
  body : List Token

namespace Reading

/-- Words that make a table out of something other than definitions, or change what it is. -/
def tableSources : List Text :=
  ["PARTITION", "AS", "SELECT", "LIKE", "UNION"]

/-- Words a constraint may begin with. -/
def constraintKinds : List Text :=
  ["PRIMARY", "UNIQUE", "FOREIGN", "CHECK"]

/-- Everything of a `CREATE TABLE` statement but its definitions. What follows them describes
storage and is left out. -/
def tableHead : Reading TableHead := do
  let _ ← expectWord ["CREATE"]
  let temporary := (← acceptWord ["TEMPORARY"]).isSome
  let _ ← expectWord ["TABLE"]
  let ifNotExists ← acceptWords ["IF", "NOT", "EXISTS"]
  let name ← tableName
  if (← here).nextIs (·.isWord tableSources) then fail (.createTableFrom (found (← here)))
  else
    let body ← parenthesized
    let options ← remaining
    match options.find? (·.isWord tableSources) with
    | some option => fail (.tableOption option.text)
    | none => return ⟨temporary, ifNotExists, name, body⟩

/-- The name behind `CONSTRAINT`, which may be missing, before a constraint. -/
def constraintName : Reading Unit := do
  if (← here).nextIs fun t => !t.isWord constraintKinds then
    let _ ← identifier
  if !(← here).nextIs (·.isWord constraintKinds) then fail .constraintDefinition

/-- A definition that no word for a key introduces. -/
def columnDefinition (types : Fields Text) (sql : Text) : Reading Definition := do
  match (← here).next? with
  | none => lift (.error .loneSemicolon)
  | some t =>
    if t.isWord ["FULLTEXT", "SPATIAL"] then return .dropped t.upper
    else if t.isWord ["FOREIGN", "CHECK"] then fail (.constraintKind t.upper)
    else return .column (← column types sql)

def definition (types : Fields Text) (sql table : Text) : Reading Definition := do
  if (← acceptWord ["CONSTRAINT"]).isSome then constraintName
  if (← acceptWord ["PRIMARY"]).isSome then
    let _ ← expectWord ["KEY"]
    skipIndexKind
    let columns ← keyList
    skipIndexOptions
    return .primaryKey (columns.map IndexColumn.name)
  else if (← acceptWord ["UNIQUE"]).isSome then
    let _ ← acceptWord ["KEY", "INDEX"]
    return .key (← key table true)
  else if (← acceptWord ["KEY", "INDEX"]).isSome then return .key (← key table false)
  else columnDefinition types sql

end Reading

/-- A new table: its columns, its primary key and its other keys, in order. -/
structure Table where
  temporary : Bool
  ifNotExists : Bool
  name : Text
  columns : List Column
  primaryKey : List Text
  keys : List Index

namespace Table

/-- The definitions of a table one after another, with a notice for each that is left out. -/
def readDefinitions (types : Fields Text) (sql table : Text) :
    List (List Token) → Report (List Definition)
  | [] => pure []
  | tokens :: more => do
    if tokens.isEmpty then Report.ofExcept (.error (.refuse .emptyDefinition))
    else
      let definition ← Report.ofExcept ((Reading.definition types sql table).run tokens)
      match definition with
      | .dropped word => Report.notes [.droppedKey word table]
      | _ => pure ()
      let definitions ← readDefinitions types sql table more
      return definition :: definitions

/-- The last column of a name, in whatever case. -/
def column? (columns : List Column) (name : Text) : Option Column :=
  columns.reverse.find? fun c => Text.lower c.name == Text.lower name

/-- The primary key of a table, given the names in its clauses. Clauses and column attributes
exclude each other, and every name has to be a column's. -/
def primaryKeyOf (table : Text) (columns : List Column) (clauses : List Text) :
    Except Error (List Text) :=
  let inline := (columns.filter Column.primaryKey).map Column.name
  if !clauses.isEmpty && !inline.isEmpty then .error (.refuse (.severalPrimaryKeys table))
  else
    let names := if clauses.isEmpty then inline else clauses
    match names.find? fun name => (column? columns name).isNone with
    | some name => .error (.refuse (.unknownKeyColumn name))
    | none => .ok names

def ofDefinitions (head : TableHead) (definitions : List Definition) : Except Error Table :=
  let columns := definitions.filterMap Definition.column?
  if columns.isEmpty then .error (.refuse (.noColumns head.name))
  else
    (primaryKeyOf head.name columns (definitions.flatMap Definition.primaryNames)).map
      fun primaryKey =>
        ⟨head.temporary, head.ifNotExists, head.name, columns, primaryKey,
          definitions.filterMap Definition.key?⟩

/-- The column that numbers itself: the only one of the primary key, if it asks for it and holds
whole numbers. -/
def numbered? (table : Table) : Option Text :=
  match table.primaryKey with
  | [name] =>
    match column? table.columns name with
    | some c => if c.autoIncrement ∧ c.targetType = "integer".toList then some c.name else none
    | none => none
  | _ => none

def isNumbered (table : Table) (column : Column) : Bool :=
  table.numbered? == some column.name

/-- A notice for every column that asks for numbers and does not get them. -/
def numberingNotices (table : Table) : List Notice :=
  (table.columns.filter fun c => c.autoIncrement && !table.isNumbered c).map fun c =>
    .droppedNumbering table.name c.name

/-- The lines between the parentheses. -/
def lines (table : Table) : List Text :=
  table.columns.map (fun c => c.render (table.isNumbered c))
    ++ (if table.primaryKey.isEmpty || table.numbered?.isSome then []
        else
          ["PRIMARY KEY (" ++ List.intercalate [',', ' '] (table.primaryKey.map quoteIdentifier)
            ++ ")"])

def render (table : Table) : Text :=
  "CREATE " ++ (if table.temporary then "TEMPORARY ".toList else []) ++ "TABLE "
    ++ (if table.ifNotExists then "IF NOT EXISTS ".toList else [])
    ++ quoteIdentifier table.name ++ " (\n"
    ++ List.intercalate [',', '\n'] (table.lines.map fun line => "    " ++ line) ++ "\n)"

/-- The name with a number behind it. -/
def numberedName (name : Text) (n : Nat) : Text :=
  name ++ "_" ++ Text.numeral n

/-- The first of the numbered names from `n` on whose lower case is not used, tried at most the
given number of times. -/
def freeNumber (used : List Text) (name : Text) (n : Nat) : Nat → Nat
  | 0 => n
  | tries + 1 =>
    if used.contains (Text.lower (numberedName name n)) then freeNumber used name (n + 1) tries
    else n

/-- The name itself if its lower case is not used, and otherwise the first free one of it with 2, 3,
… behind it. As many tries as there are names are enough. -/
def freeName (used : List Text) (name : Text) : Text :=
  if used.contains (Text.lower name) then
    numberedName name (freeNumber used name 2 used.length)
  else name

/-- The keys in order, each with a name of its own. -/
def distinctKeys (used : List Text) : List Index → List Index
  | [] => []
  | index :: more =>
    let name := freeName used index.name
    { index with name := name } :: distinctKeys (Text.lower name :: used) more

/-- The statements that create the table and its indexes. -/
def statements (table : Table) : List Text :=
  table.render :: (distinctKeys [] table.keys).map fun index => index.render table.ifNotExists

/-- The statements that create the table a statement defines. -/
def restate (types : Fields Text) (sql : Text) (tokens : List Token) : Report (List Text) := do
  let head ← Report.ofExcept (Reading.tableHead.run tokens)
  let definitions ← readDefinitions types sql head.name (splitTopLevel "," head.body)
  let table ← Report.ofExcept (ofDefinitions head definitions)
  Report.notes table.numberingNotices
  return table.statements

end Table

end Restate
