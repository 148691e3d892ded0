import Restate.Parameter
import Restate.Schema.Cursor
import Restate.Settings

/-!
# Columns

A column definition is a name, a type, and clauses in any order, of which the last that says
something counts. The type becomes one word; length, sign and padding are left out, and so are
comments, character sets and update rules.
-/

namespace Restate

/-- A column as it was defined, with the type it gets. -/
structure Column where
  name : Text
  sourceType : Text
  targetType : Text
  /-- Whether null is allowed, if that was said. -/
  nullable : Option Bool
  /-- The default as SQLite writes it. -/
  default : Option Text
  autoIncrement : Bool
  primaryKey : Bool
  unique : Bool
  deriving DecidableEq

/-- What one clause of a column definition says. -/
inductive ColumnClause where
  | nullable (allowed : Bool)
  | default (value : Text)
  | autoIncrement
  | primaryKey
  | unique
  | omitted
  deriving DecidableEq

namespace Column

/-- A column with nothing but a name and a type. -/
def bare (name sourceType targetType : Text) : Column :=
  ⟨name, sourceType, targetType, none, none, false, false, false⟩

/-- The column with a clause added; a later clause takes the place of an earlier one. -/
def set (column : Column) : ColumnClause → Column
  | .nullable allowed => { column with nullable := some allowed }
  | .default value => { column with default := some value }
  | .autoIncrement => { column with autoIncrement := true }
  | .primaryKey => { column with primaryKey := true }
  | .unique => { column with unique := true }
  | .omitted => column

/-- The column as a definition in a new table; `numbered` makes it the numbered primary key. -/
def render (column : Column) (numbered : Bool) : Text :=
  List.intercalate [' '] <|
    [quoteIdentifier column.name, column.targetType]
    ++ (match column.nullable with
        | some false => ["NOT NULL".toList]
        | some true => ["NULL".toList]
        | none => [])
    ++ (match column.default with
        | some value => ["DEFAULT ".toList ++ value]
        | none => [])
    ++ (if column.unique then ["UNIQUE".toList] else [])
    ++ (if numbered then ["PRIMARY KEY AUTOINCREMENT".toList] else [])

end Column

/-- One token as SQLite writes it. -/
def sqliteText (t : Token) : Text :=
  match t.kind with
  | .quotedIdentifier => quoteIdentifier t.value
  | .string => quoteString t.value
  | _ => t.text

/-- Significant tokens as SQLite writes them, with a blank wherever two did not touch. -/
def renderTokens : List Token → Text
  | [] => []
  | [t] => sqliteText t
  | t :: u :: rest =>
    sqliteText t ++ (if t.stop < u.start then [' '] else []) ++ renderTokens (u :: rest)

/-- The SQLite type of a MySQL type without length and modifiers. -/
def mapType (types : Fields Text) (name : Text) : Except Error Text :=
  match types.get? (Text.lower name) with
  | some target => .ok target
  | none => .error (.refuse (.unknownType name))

/-- A type that was read: what it becomes, and its first and last token. -/
structure TypeSpan where
  target : Text
  first : Token
  last : Token

namespace Reading

/-- Words that may follow a type and are left out with it. -/
def typeModifiers : List Text :=
  ["UNSIGNED", "SIGNED", "ZEROFILL"]

/-- The token passed last, or the given one if there is none. -/
def lastPassed (t : Token) : Reading Token := do
  return (← here).passed.head?.getD t

/-- A column type: a word, perhaps of two parts, with arguments and modifiers. -/
def columnType (types : Fields Text) : Reading TypeSpan := do
  let first ← advance
  if !first.kind.isBare then fail (.expectedType first.text)
  else
    let precise ←
      if first.isWord ["DOUBLE"] then acceptWord ["PRECISION"] else pure none
    let base := if precise.isSome then "double precision".toList else first.text
    skipGroup
    skipModifiers
    let target ← lift (mapType types base)
    return ⟨target, first, ← lastPassed first⟩
where
  /-- Passes every modifier that comes next. -/
  skipModifiers : Reading Unit := fun c =>
    (.ok (), c.skip (c.ahead.takeWhile fun t => t.isWord typeModifiers).length)

/-- Words that stand for the current time, with what SQLite calls it. -/
def currentTimes : Fields Text :=
  [("CURRENT_TIMESTAMP", "CURRENT_TIMESTAMP"), ("NOW", "CURRENT_TIMESTAMP"),
   ("LOCALTIME", "CURRENT_TIMESTAMP"), ("LOCALTIMESTAMP", "CURRENT_TIMESTAMP"),
   ("CURRENT_DATE", "CURRENT_DATE"), ("CURRENT_TIME", "CURRENT_TIME")]

/-- The name of the current time a token stands for. -/
def currentTime? (t : Token) : Option Text :=
  if t.kind.isBare then currentTimes.get? t.upper else none

/-- A literal that a word introduces, or a value that is not supported. -/
def introducedDefault (t : Token) : Reading Text := do
  match (← here).next? with
  | some literal =>
    if t.isWord ["B", "X"] && literal.kind == .string && t.touches literal then
      let _ ← advance
      if t.upper = ['B'] then
        match bitNumeral literal.value with
        | .ok text => return text
        | .error fault => lift (.error (.numeral fault))
      else return "X'" ++ literal.value ++ "'"
    else fail (.defaultValue t.text)
  | none => fail (.defaultValue t.text)

/-- The value of a default: a literal, a signed number, an expression in parentheses, a constant
word, or the current time. -/
def defaultValue : Reading Text := do
  if (← here).nextIs (·.isPunct "(") then return renderTokens (← group)
  else
    let t ← advance
    if t.kind = .string then return quoteString t.value
    else if t.kind = .number then return t.text
    else if t.isOperator "-" || t.isOperator "+" then
      let number ← advance
      if number.kind = .number then return t.text ++ number.text
      else fail (.defaultNear number.text)
    else if t.isWord ["NULL", "TRUE", "FALSE"] then return t.upper
    else
      match currentTime? t with
      | some name => do
        skipGroup
        return name
      | none => introducedDefault t

/-- The word that begins a clause about the character set: its first words are passed if they are
there. -/
def acceptCharacterSet : Reading Bool := do
  if ← acceptWords ["CHARACTER", "SET"] then return true
  else return (← acceptWord ["CHARSET", "COLLATE"]).isSome

/-- A value behind an optional equals sign is passed. -/
def skipSetting : Reading Unit := do
  let _ ← acceptOperator "="
  let _ ← advance

/-- What follows `ON UPDATE` is passed. -/
def skipUpdateRule : Reading Unit := do
  let _ ← advance
  skipGroup

def columnClause (column : Text) : Reading ColumnClause := do
  if ← acceptWords ["NOT", "NULL"] then return .nullable false
  else if (← acceptWord ["NULL"]).isSome then return .nullable true
  else if (← acceptWord ["DEFAULT"]).isSome then return .default (← defaultValue)
  else if (← acceptWord ["AUTO_INCREMENT"]).isSome then return .autoIncrement
  else if (← acceptWord ["PRIMARY"]).isSome then
    let _ ← acceptWord ["KEY"]
    return .primaryKey
  else if (← acceptWord ["KEY"]).isSome then return .primaryKey
  else if (← acceptWord ["UNIQUE"]).isSome then
    let _ ← acceptWord ["KEY"]
    return .unique
  else if (← acceptWord ["COMMENT"]).isSome then
    let _ ← advance
    return .omitted
  else if ← acceptCharacterSet then
    skipSetting
    return .omitted
  else if ← acceptWords ["ON", "UPDATE"] then
    skipUpdateRule
    return .omitted
  else fail (.columnAttribute (found (← here)) column)

/-- A column definition. The type as written is cut out of the statement. -/
def column (types : Fields Text) (sql : Text) : Reading Column := do
  let name ← identifier
  let span ← columnType types
  let sourceType := (sql.drop span.first.start).take (span.last.stop - span.first.start)
  let clauses ← gather (columnClause name)
  return clauses.foldl Column.set (Column.bare name sourceType span.target)

end Reading

end Restate
