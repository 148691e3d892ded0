import Restate.Install.Engine
import Restate.Script

/-!
# Recording

An engine that runs nothing and keeps what it is asked to run, in order, as a script. Every
operation on it succeeds.
-/

namespace Restate

structure Recording where
  /-- The path of the database, once it is opened. -/
  path : Option Text
  inTransaction : Bool
  /-- The queries, latest first. -/
  queries : List Query

namespace Recording

def start : Recording := ⟨none, false, []⟩

def record (command : Command) (params : Option (Fields Text)) (r : Recording) : Recording :=
  let opened := command.text == "BEGIN".toList
  let ended := command.text == "COMMIT".toList || command.text == "ROLLBACK".toList
  { r with
    queries := ⟨command, params.getD []⟩ :: r.queries,
    inTransaction := if opened then true else if ended then false else r.inTransaction }

def engine : Engine Recording where
  connect path r := { r with path := some path }
  execute command params r := (.ok (), r.record command params)
  inTransaction r := r.inTransaction
  sleep _ r := r
  close r := r

def script (r : Recording) : Text :=
  r.queries.reverse.flatMap Script.entry

end Recording

end Restate
