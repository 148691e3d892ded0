import Restate.Schema.Table

/-!
# Schema statements

The statements that change a schema, apart from the definitions of a new table. A column is added by
edits of the statement's own text, so what is not understood there stays as it was written; keys are
added and dropped by statements on indexes.
-/

namespace Restate

/-- The replacement of a stretch of a text, from offset `start` up to `stop`. -/
structure Edit where
  start : Nat
  stop : Nat
  replacement : Text
  deriving DecidableEq

namespace Edit

def apply (edit : Edit) (s : Text) : Text :=
  s.take edit.start ++ edit.replacement ++ s.drop edit.stop

/-- Edits in the order of their places, applied from the last to the first so that no offset moves
before it is used. -/
def applyAll (edits : List Edit) (s : Text) : Text :=
  edits.foldr apply s

end Edit

/-- What becomes of a part of an added column behind its type. -/
inductive AddedPart where
  /-- It stays as it is written. -/
  | kept
  /-- It is left out, with the gap before it. -/
  | removed (edit : Edit)
  /-- It asks for automatic numbers and is left out. -/
  | numbering (edit : Edit)
  /-- It is a literal that SQLite writes differently. -/
  | requoted (edit : Edit)
  deriving DecidableEq

namespace AddedPart

def edit? : AddedPart → Option Edit
  | .kept => none
  | .removed edit | .numbering edit | .requoted edit => some edit

/-- A notice where automatic numbers are lost. -/
def notices (table column : Text) : AddedPart → List Notice
  | .numbering _ => [.droppedAddedNumbering table column]
  | _ => []

end AddedPart

/-- What the statement that adds a column says up to the column's type. -/
structure AddedHead where
  table : Text
  column : Text
  type : TypeSpan

namespace Reading

/-- `ALTER TABLE` and the name of a table. -/
def alterTable : Reading Text := do
  let _ ← expectWord ["ALTER"]
  let _ ← expectWord ["TABLE"]
  tableName

/-- The statement up to the column's type. -/
def addedHead (types : Fields Text) : Reading AddedHead := do
  let table ← alterTable
  let _ ← expectWord ["ADD"]
  let _ ← acceptWord ["COLUMN"]
  let column ← identifier
  return ⟨table, column, ← columnType types⟩

/-- The removal of what was passed since an earlier place, with the gap before it. -/
def removalSince (before : Cursor) : Reading Edit := do
  let stopOf (c : Cursor) : Nat := (c.passed.head?.map Token.stop).getD 0
  return ⟨stopOf before, stopOf (← here), []⟩

/-- One part of an added column behind its type. -/
def addedPart : Reading AddedPart := do
  let before ← here
  if ← acceptCharacterSet then
    skipSetting
    return .removed (← removalSince before)
  else if (← acceptWord ["FIRST"]).isSome then return .removed (← removalSince before)
  else if (← acceptWord ["AFTER", "COMMENT"]).isSome then
    let _ ← advance
    return .removed (← removalSince before)
  else if ← acceptWords ["ON", "UPDATE"] then
    skipUpdateRule
    return .removed (← removalSince before)
  else if (← acceptWord ["AUTO_INCREMENT"]).isSome then
    return .numbering (← removalSince before)
  else
    let t ← advance
    let quoted := quoteString t.value
    if t.kind = .string ∧ quoted ≠ t.text then return .requoted ⟨t.start, t.stop, quoted⟩
    else return .kept

def addedKey : Reading Index := do
  let table ← alterTable
  let _ ← expectWord ["ADD"]
  if (← acceptWord ["UNIQUE"]).isSome then
    let _ ← acceptWord ["KEY", "INDEX"]
    key table true
  else
    let _ ← expectWord ["KEY", "INDEX"]
    key table false

def createdIndex : Reading Index := do
  let _ ← expectWord ["CREATE"]
  let unique := (← acceptWord ["UNIQUE"]).isSome
  let _ ← expectWord ["INDEX"]
  let name ← identifier
  skipIndexKind
  let _ ← expectWord ["ON"]
  let table ← tableName
  let columns ← keyList
  skipIndexOptions
  return ⟨name, table, unique, columns⟩

/-- The table and the key of a dropped index, in either of the two forms of the statement. -/
def droppedIndex : Reading (Text × Text) := do
  let dropped ←
    if (← here).nextIs (·.isWord ["ALTER"]) then do
      let table ← alterTable
      let _ ← expectWord ["DROP"]
      let _ ← expectWord ["INDEX", "KEY"]
      let name ← identifier
      pure (table, name)
    else do
      let _ ← expectWord ["DROP"]
      let _ ← expectWord ["INDEX"]
      let name ← identifier
      let _ ← expectWord ["ON"]
      let table ← tableName
      pure (table, name)
  match (← here).next? with
  | some t => fail (.afterDropIndex t.text)
  | none => return dropped

end Reading

/-- The edits that adding a column takes, in order: its type, then its other parts. -/
def addedEdits (type : TypeSpan) (parts : List AddedPart) : List Edit :=
  ⟨type.first.start, type.last.stop, type.target⟩ :: parts.filterMap AddedPart.edit?

/-- The statement that adds a column. -/
def restateAddColumn (types : Fields Text) (sql : Text) (tokens : List Token) : Report Text :=
  match Reading.addedHead types (Cursor.ofTokens tokens) with
  | (.error e, _) => ⟨[], .error e⟩
  | (.ok head, c) =>
    let (parts, result, _) := Reading.collect Reading.addedPart c
    ⟨parts.flatMap (AddedPart.notices head.table head.column),
      result.map fun _ => Edit.applyAll (addedEdits head.type parts) sql⟩

/-- The statements a schema statement of the given kind becomes, from its significant tokens. -/
def restateSchemaTokens (types : Fields Text) (kind : StatementKind) (sql : Text)
    (tokens : List Token) : Report (List Text) :=
  match kind with
  | .createTable => Table.restate types sql tokens
  | .createIndex => do
    let index ← Report.ofExcept (Reading.createdIndex.run tokens)
    return [index.render false]
  | .alterAddColumn => do
    return [← restateAddColumn types sql tokens]
  | .alterAddKey | .alterAddUniqueKey => do
    let index ← Report.ofExcept (Reading.addedKey.run tokens)
    return [index.render false]
  | .dropIndex => do
    let (table, key) ← Report.ofExcept (Reading.droppedIndex.run tokens)
    return [Index.renderDrop table key]
  | _ => Report.ofExcept (.error (.refuse (.notSchema kind)))

/-- The statements a schema statement of the given kind becomes. -/
def restateSchema (types : Fields Text) (kind : StatementKind) (sql : Text)
    (tokens : List Token) : Report (List Text) :=
  (restateSchemaTokens types kind sql (significant tokens)).about sql

end Restate
