import Restate.Query
import Restate.Number.Double
import Restate.Text.Case

/-!
# Database engines

The database a schema is installed into, as far as the installer sees it: a state, and operations on
it that may fail. Anything with these operations can be installed into, a real database as well as a
recorded or an imagined one.
-/

namespace Restate

/-- What kind of failure an engine reports. -/
inductive EngineErrorKind where
  | general
  | database
  | integrity
  | operational
  | programming
  | interface
  /-- A failure that is not the database's own, by the name of its kind. -/
  | foreign (name : Text)
  deriving DecidableEq, Repr

/-- A failure of an operation on an engine, with the result code of the database if it gave one. -/
structure EngineError where
  kind : EngineErrorKind
  message : Text
  code : Option Int
  deriving DecidableEq

namespace EngineError

/-- Result codes of a busy and of a locked database. -/
def lockCodes : List Int := [5, 6]

/-- Whether the database is busy or locked: by the lowest byte of the code if there is one, and
otherwise by the message. -/
def isLock (e : EngineError) : Bool :=
  match e.code with
  | some code => lockCodes.contains (code % 256)
  | none =>
    let message := Text.lower e.message
    Text.holds "locked".toList message || Text.holds "busy".toList message

/-- Whether the failed operation may be tried again. -/
def isRetriable (e : EngineError) : Bool :=
  e.kind == .operational && e.isLock

def isDatabase (e : EngineError) : Bool :=
  match e.kind with
  | .foreign _ => false
  | _ => true

end EngineError

/-- An engine with states of type `σ`. -/
structure Engine (σ : Type) where
  /-- Opens the database at a path. -/
  connect : Text → σ → σ
  /-- Runs a command, with parameters if it takes any. -/
  execute : Command → Option (Fields Text) → σ → Except EngineError Unit × σ
  inTransaction : σ → Bool
  sleep : Double → σ → σ
  /-- How a pause of a length fails, where none can be made. -/
  pauseFault? : Double → Option EngineError := fun _ => none
  close : σ → σ

end Restate
