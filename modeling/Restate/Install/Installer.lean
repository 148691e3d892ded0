import Restate.Install.Engine
import Restate.Script

/-!
# Installing schemas

A batch is restated as a whole before anything runs; then its queries run between one `BEGIN` and
one `COMMIT`. A commit that meets a lock is tried again, as often as the settings allow; any other
failure of the database is answered by a `ROLLBACK`, if a transaction is open.
-/

namespace Restate

/-- Why a schema is not installed. -/
inductive InstallError where
  /-- A statement of the batch cannot be restated. -/
  | statement (error : Error)
  /-- The database refused a query, or the transaction where no query is named. -/
  | execution (cause : EngineError) (query : Option Command)
  /-- The engine failed in a way that is not answered by a rollback, or the rollback failed. -/
  | engine (cause : EngineError)
  /-- A lock was met and the settings do not say what to do. -/
  | setting (fault : SettingFault)

/-- What the installer says when the database refused something. -/
def InstallError.executionMessage (cause : EngineError) : Text :=
  "Error occurred while creating tables or indexes: " ++ cause.message

namespace Installer

variable {σ : Type}

/-- Why a transaction ended early. -/
inductive Interruption where
  | engine (cause : EngineError)
  | setting (fault : SettingFault)

/-- What a part of the installation told, how it ended, and the engine's state after it. -/
structure Stage (σ ε : Type) where
  notices : List Notice
  outcome : Except ε Unit
  state : σ

def begin : Command := .sql "BEGIN"

def commit : Command := .sql "COMMIT"

def rollback : Command := .sql "ROLLBACK"

/-- How patiently a commit is tried again: the number of retries as it is told, and the delay. -/
structure Patience where
  limit : Int
  delay : Except SettingFault Double

/-- Commits; `attempt` retries were made and `left` more are allowed. -/
def commitFrom (engine : Engine σ) (patience : Patience) (attempt left : Nat) (s : σ) :
    Stage σ Interruption :=
  match engine.execute commit none s with
  | (.ok (), s) => ⟨[], .ok (), s⟩
  | (.error e, s) =>
    if !e.isRetriable then ⟨[], .error (.engine e), s⟩
    else
      match left with
      | 0 => ⟨[], .error (.engine e), s⟩
      | left + 1 =>
        let notice := Notice.commitRetried (attempt + 1) patience.limit
        match patience.delay with
        | .error fault => ⟨[notice], .error (.setting fault), s⟩
        | .ok delay =>
          match engine.pauseFault? delay with
          | some e => ⟨[notice], .error (.engine e), s⟩
          | none =>
            let stage := commitFrom engine patience (attempt + 1) left (engine.sleep delay s)
            { stage with notices := notice :: stage.notices }

/-- Commits as the settings say. They are asked only when a lock is met. -/
def commitAll (engine : Engine σ) (settings : Settings) (s : σ) : Stage σ Interruption :=
  match settings.maxRetries with
  | .ok limit => commitFrom engine ⟨limit, settings.retryDelay⟩ 0 limit.toNat s
  | .error fault =>
    match engine.execute commit none s with
    | (.ok (), s) => ⟨[], .ok (), s⟩
    | (.error e, s) => ⟨[], .error (if e.isRetriable then .setting fault else .engine e), s⟩

/-- Runs queries up to the first that fails, which is told with its failure. -/
def runQueries (engine : Engine σ) : List Query → σ → Except (EngineError × Command) Unit × σ
  | [], s => (.ok (), s)
  | query :: more, s =>
    match engine.execute query.command (some query.params) s with
    | (.ok (), s) => runQueries engine more s
    | (.error e, s) => (.error (e, query.command), s)

/-- Answers a failure of the engine: a transaction that is open is rolled back, if the failure is
the database's own. -/
def recover (engine : Engine σ) (cause : EngineError) (query : Option Command) (s : σ) :
    Stage σ InstallError :=
  if !cause.isDatabase then ⟨[], .error (.engine cause), s⟩
  else
    let (rolledBack, s) : Except EngineError Unit × σ :=
      if engine.inTransaction s then engine.execute rollback none s else (.ok (), s)
    match rolledBack with
    | .error e => ⟨[], .error (.engine e), s⟩
    | .ok () => ⟨[.executionFailed query], .error (.execution cause query), s⟩

/-- Ends the transaction after its queries have run. -/
def finish (engine : Engine σ) (settings : Settings) (s : σ) : Stage σ InstallError :=
  let committed := commitAll engine settings s
  match committed.outcome with
  | .ok () => ⟨committed.notices, .ok (), committed.state⟩
  | .error (.setting fault) => ⟨committed.notices, .error (.setting fault), committed.state⟩
  | .error (.engine e) =>
    let recovered := recover engine e none committed.state
    { recovered with notices := committed.notices ++ recovered.notices }

def transact (engine : Engine σ) (settings : Settings) (queries : List Query) (s : σ) :
    Stage σ InstallError :=
  match engine.execute begin none s with
  | (.error e, s) => recover engine e none s
  | (.ok (), s) =>
    match runQueries engine queries s with
    | (.error (e, command), s) => recover engine e (some command) s
    | (.ok (), s) => finish engine settings s

/-- How an installation went. -/
structure Installation where
  notices : List Notice
  rows : List BatchRow
  outcome : Except InstallError Nat

/-- Runs queries over a connection that is opened at a path and closed again, or over one that was
supplied open. -/
def transactAt (engine : Engine σ) (settings : Settings) (path : Option Text)
    (queries : List Query) (s : σ) : Stage σ InstallError :=
  match path with
  | none => transact engine settings queries s
  | some path =>
    let stage := transact engine settings queries (engine.connect path s)
    { stage with state := engine.close stage.state }

/-- Installs the schema of a batch into a database. With `supplied` the engine is connected
already. -/
def install (engine : Engine σ) (settings : Settings) (database : Text) (supplied : Bool)
    (batch : Text) (s : σ) : Installation × σ :=
  let report := BatchReport.ofBatch settings batch
  match report.outcome with
  | .error e =>
    let told := if e.isReported then [Notice.schemaFailed e] else []
    (⟨report.notices ++ told, report.rows, .error (.statement e)⟩, s)
  | .ok queries =>
    let path := if supplied then none else some database
    let stage := transactAt engine settings path queries s
    let installed := Notice.installed report.rows.length queries.length database
    match stage.outcome with
    | .ok () =>
      (⟨report.notices ++ stage.notices ++ [installed], report.rows, .ok queries.length⟩,
        stage.state)
    | .error e => (⟨report.notices ++ stage.notices, report.rows, .error e⟩, stage.state)

end Installer

end Restate
