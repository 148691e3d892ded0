import Restate.Error
import Restate.Query

/-!
# Notices

What is told about a run while it goes on: what is left out, what is tried again, what was done.
Notices are data, given back beside the outcome, so they are there also when the run fails.
-/

namespace Restate

open Text

/-- How much a notice matters. -/
inductive Level where
  | info
  | warning
  | error
  deriving DecidableEq, Repr

def Level.label : Level → Text
  | .info => "INFO"
  | .warning => "WARNING"
  | .error => "ERROR"

/-- What happened along the way. -/
inductive Notice where
  /-- A statement without a meaning in SQLite is replaced by one without effect. -/
  | ignored (statement : Text)
  /-- A full-text or spatial key is left out. -/
  | droppedKey (word table : Text)
  /-- A column of a new table loses its automatic numbering. -/
  | droppedNumbering (table column : Text)
  /-- An added column loses its automatic numbering. -/
  | droppedAddedNumbering (table column : Text)
  | scriptWritten (queries : Nat) (path : Text)
  | installed (statements queries : Nat) (database : Text)
  /-- A commit met a lock and is tried again. -/
  | commitRetried (attempt : Nat) (limit : Int)
  /-- A statement could not be restated. -/
  | statementFailed (error : Error)
  /-- A schema could not be restated. -/
  | schemaFailed (error : Error)
  /-- A query, or the transaction around the queries, failed. -/
  | executionFailed (query : Option Command)

namespace Notice

/-- How much a notice matters: what is left out or tried again is worth a warning. -/
def level : Notice → Level
  | .ignored _ => .info
  | .droppedKey _ _ => .warning
  | .droppedNumbering _ _ => .warning
  | .droppedAddedNumbering _ _ => .warning
  | .scriptWritten _ _ => .info
  | .installed _ _ _ => .info
  | .commitRetried _ _ => .warning
  | .statementFailed _ => .error
  | .schemaFailed _ => .error
  | .executionFailed _ => .error

/-- The notice in words. Of an ignored statement the beginning is shown. -/
def message : Notice → Text
  | .ignored statement =>
    "Ignoring statement with no SQLite equivalent: " ++ shown (statement.take 80)
  | .droppedKey word table =>
    "Dropping " ++ word ++ " key on " ++ table ++ ": no SQLite equivalent"
  | .droppedNumbering table column =>
    "Dropping AUTO_INCREMENT on " ++ table ++ "." ++ column
      ++ ": only a sole integer primary key can auto-increment in SQLite"
  | .droppedAddedNumbering table column =>
    "Dropping AUTO_INCREMENT on added column " ++ table ++ "." ++ column
  | .scriptWritten queries path =>
    "Translated " ++ numeral queries ++ " queries → " ++ path
  | .installed statements queries database =>
    "Installed " ++ numeral statements ++ " statements as " ++ numeral queries
      ++ " queries into " ++ database
  | .commitRetried attempt limit =>
    "Database locked on commit, retrying (" ++ numeral attempt ++ "/" ++ signedNumeral limit ++ ")"
  | .statementFailed error => "Translation failed: " ++ error.message
  | .schemaFailed error => "Schema translation failed: " ++ error.message
  | .executionFailed query =>
    let shownQuery : Text :=
      match query with
      | some command => command.toJson.shown
      | none => "None"
    "Error occurred while creating tables or indexes. Query was: " ++ shownQuery

end Notice

/-- An outcome together with the notices given on the way to it. -/
structure Report (α : Type) where
  notices : List Notice
  outcome : Except Error α

namespace Report

variable {α β : Type}

instance : Monad Report where
  pure a := ⟨[], .ok a⟩
  bind x f :=
    match x.outcome with
    | .ok a => ⟨x.notices ++ (f a).notices, (f a).outcome⟩
    | .error e => ⟨x.notices, .error e⟩

/-- Notices, and nothing else. -/
def notes (notices : List Notice) : Report Unit :=
  ⟨notices, .ok ()⟩

/-- An outcome without notices. -/
def ofExcept (outcome : Except Error α) : Report α :=
  ⟨[], outcome⟩

/-- The report with its error, if there is one, tied to a statement. -/
def about (statement : Text) (report : Report α) : Report α :=
  { report with outcome := report.outcome.mapError (Error.about statement) }

end Report

end Restate
