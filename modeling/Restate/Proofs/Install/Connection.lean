import Mathlib.Data.Stream.Init
import Restate.Install.Installer

/-!
# A connection with transactions

A database as far as its transactions go: which statements have lasted, and which are pending in a
transaction that is open. `BEGIN` opens a transaction and fails inside one, `COMMIT` makes the open
one last, `ROLLBACK` undoes it, and a statement outside a transaction lasts at once. Any operation
but a `ROLLBACK` may be met by a failure, in a pattern that is fixed beforehand and otherwise
arbitrary.
-/

namespace Restate

/-- What a command does to transactions. -/
inductive Role where
  | begin
  | commit
  | rollback
  /-- Anything else. -/
  | work
  deriving DecidableEq, Repr

/-- How a database reads commands. It knows the three with which the installer steers its
transaction. -/
structure Dialect where
  role : Command → Role
  role_begin : role Installer.begin = .begin
  role_commit : role Installer.commit = .commit
  role_rollback : role Installer.rollback = .rollback

namespace Dialect

/-- Transaction control by single words. -/
def words : Dialect where
  role command :=
    if command.text = "BEGIN".toList then .begin
    else if command.text = "COMMIT".toList then .commit
    else if command.text = "ROLLBACK".toList then .rollback
    else .work
  role_begin := rfl
  role_commit := rfl
  role_rollback := rfl

variable (dialect : Dialect)

/-- The roles of queries. -/
def roles (queries : List Query) : List Role :=
  queries.map fun query => dialect.role query.command

/-- The queries that are no transaction control. -/
def works (queries : List Query) : List Query :=
  queries.filter fun query => dialect.role query.command = .work

end Dialect

/-- What a database holds, as the queries whose effects it has. -/
structure Store where
  /-- The effects that last. -/
  durable : List Query
  /-- The effects of the transaction that is open. -/
  pending : Option (List Query)

namespace Store

/-- The store after a query that meets no failure, unless it is refused. -/
def run (role : Role) (query : Query) (s : Store) : Option Store :=
  match role, s.pending with
  | .begin, none => some { s with pending := some [] }
  | .begin, some _ => none
  | .commit, some queries => some ⟨s.durable ++ queries, none⟩
  | .commit, none => none
  | .rollback, some _ => some { s with pending := none }
  | .rollback, none => none
  | .work, some queries => some { s with pending := some (queries ++ [query]) }
  | .work, none => some { s with durable := s.durable ++ [query] }

end Store

/-- A store, and the failures that the operations on it will meet, one after another. -/
structure Connection extends Store where
  faults : Stream' (Option EngineError)

namespace Connection

/-- How a command is refused that does not fit the transaction. -/
def refusal : EngineError :=
  ⟨.operational, "no such transaction", some 1⟩

/-- Runs a query. A failure leaves the store as it is; a rollback meets none. -/
def execute (role : Role) (query : Query) (c : Connection) :
    Except EngineError Unit × Connection :=
  match (if role = .rollback then none else c.faults.head) with
  | some e => (.error e, ⟨c.toStore, c.faults.tail⟩)
  | none =>
    match c.toStore.run role query with
    | some s => (.ok (), ⟨s, c.faults.tail⟩)
    | none => (.error refusal, ⟨c.toStore, c.faults.tail⟩)

/-- The connection without an open transaction. -/
def dropped (c : Connection) : Connection :=
  { c with pending := none }

/-- Connections as an engine. Opening and closing one drops a transaction that is open. -/
def engine (dialect : Dialect) : Engine Connection where
  connect _ c := c.dropped
  execute command params c := c.execute (dialect.role command) ⟨command, params.getD []⟩
  inTransaction c := c.pending.isSome
  sleep _ c := c
  close c := c.dropped

variable {role : Role} {query : Query} {c : Connection}

/-- A query runs, or it fails and changes nothing. -/
theorem execute_cases (role : Role) (query : Query) (c : Connection) :
    (∃ s, c.toStore.run role query = some s ∧
      c.execute role query = (.ok (), ⟨s, c.faults.tail⟩)) ∨
    ∃ e, c.execute role query = (.error e, ⟨c.toStore, c.faults.tail⟩) := by
  unfold execute
  split
  · next e _ => exact .inr ⟨e, rfl⟩
  · cases hrun : c.toStore.run role query with
    | some s => exact .inl ⟨s, rfl, rfl⟩
    | none => exact .inr ⟨refusal, rfl⟩

theorem execute_of_run {s : Store} (hrun : c.toStore.run role query = some s)
    (hfault : c.faults.head = none) : c.execute role query = (.ok (), ⟨s, c.faults.tail⟩) := by
  simp [execute, hrun, hfault]

theorem execute_of_refused (hrun : c.toStore.run role query = none) :
    ∃ e, c.execute role query = (.error e, ⟨c.toStore, c.faults.tail⟩) := by
  rcases execute_cases role query c with ⟨s, hs, -⟩ | h
  · simp [hrun] at hs
  · exact h

theorem execute_of_fault {e : EngineError} (hrole : role ≠ .rollback)
    (hfault : c.faults.head = some e) :
    c.execute role query = (.error e, ⟨c.toStore, c.faults.tail⟩) := by
  simp [execute, hrole, hfault]

/-- Answering a failure changes nothing that lasts. -/
theorem recover_spec (dialect : Dialect) (cause : EngineError) (command : Option Command)
    (c : Connection) :
    (∃ e, (Installer.recover (engine dialect) cause command c).outcome = .error e) ∧
      (Installer.recover (engine dialect) cause command c).state.durable = c.durable := by
  unfold Installer.recover
  split
  · exact ⟨⟨_, rfl⟩, rfl⟩
  · cases hpending : c.pending with
    | none => simp [engine, hpending]
    | some queries =>
        have hrole := dialect.role_rollback
        simp [engine, hpending, hrole, execute, Store.run]

/-- What a stage does that may commit: it succeeds and the open transaction lasts, or it fails and
the store is as it was. -/
def Commits {ε : Type} (c : Connection) (stage : Installer.Stage Connection ε) : Prop :=
  (stage.outcome = .ok () ∧
    ∃ queries, c.pending = some queries ∧ stage.state.durable = c.durable ++ queries) ∨
  (∃ e, stage.outcome = .error e) ∧ stage.state.toStore = c.toStore

theorem execute_commit (dialect : Dialect) (c : Connection) :
    (∃ queries, c.pending = some queries ∧
      (engine dialect).execute Installer.commit none c =
        (.ok (), ⟨⟨c.durable ++ queries, none⟩, c.faults.tail⟩)) ∨
    ∃ e, (engine dialect).execute Installer.commit none c =
      (.error e, ⟨c.toStore, c.faults.tail⟩) := by
  have hengine : (engine dialect).execute Installer.commit none c =
      c.execute .commit ⟨Installer.commit, []⟩ := by
    simp [engine, dialect.role_commit]
  rw [hengine]
  rcases execute_cases .commit ⟨Installer.commit, []⟩ c with ⟨s, hrun, hexecute⟩ | herror
  · cases hpending : c.pending with
    | none => simp [Store.run, hpending] at hrun
    | some queries =>
        obtain rfl : ⟨c.durable ++ queries, none⟩ = s := by simpa [Store.run, hpending] using hrun
        exact .inl ⟨queries, rfl, hexecute⟩
  · exact .inr herror

theorem commitFrom_spec (dialect : Dialect) (patience : Installer.Patience) (attempt left : Nat)
    (c : Connection) :
    Commits c (Installer.commitFrom (engine dialect) patience attempt left c) := by
  -- an attempt that fails uses up a fault and leaves the store, so the next one starts from it
  induction left generalizing attempt c with
  | zero =>
      unfold Installer.commitFrom
      rcases execute_commit dialect c with ⟨queries, hpending, hexecute⟩ | ⟨e, hexecute⟩
      · rw [hexecute]
        exact .inl ⟨rfl, queries, hpending, rfl⟩
      · rw [hexecute]
        dsimp only
        split
        · exact .inr ⟨⟨_, rfl⟩, rfl⟩
        · exact .inr ⟨⟨_, rfl⟩, rfl⟩
  | succ left ih =>
      unfold Installer.commitFrom
      rcases execute_commit dialect c with ⟨queries, hpending, hexecute⟩ | ⟨e, hexecute⟩
      · rw [hexecute]
        exact .inl ⟨rfl, queries, hpending, rfl⟩
      · rw [hexecute]
        dsimp only
        split
        · exact .inr ⟨⟨_, rfl⟩, rfl⟩
        · cases patience.delay with
          | error fault => exact .inr ⟨⟨_, rfl⟩, rfl⟩
          | ok delay => exact ih (attempt + 1) ⟨c.toStore, c.faults.tail⟩

theorem commitAll_spec (dialect : Dialect) (settings : Settings) (c : Connection) :
    Commits c (Installer.commitAll (engine dialect) settings c) := by
  unfold Installer.commitAll
  split
  · exact commitFrom_spec dialect _ _ _ _
  · rcases execute_commit dialect c with ⟨queries, hpending, hexecute⟩ | ⟨e, hexecute⟩
    · rw [hexecute]
      exact .inl ⟨rfl, queries, hpending, rfl⟩
    · rw [hexecute]
      exact .inr ⟨⟨_, rfl⟩, rfl⟩

theorem commitAll_of_pending {queries : List Query} (dialect : Dialect) (settings : Settings)
    (hpending : c.pending = some queries) (hfault : c.faults.head = none) :
    (Installer.commitAll (engine dialect) settings c).outcome = .ok () ∧
      (Installer.commitAll (engine dialect) settings c).state.durable = c.durable ++ queries := by
  have hexecute : (engine dialect).execute Installer.commit none c =
      (.ok (), ⟨⟨c.durable ++ queries, none⟩, c.faults.tail⟩) := by
    simp [engine, dialect.role_commit, execute, Store.run, hpending, hfault]
  unfold Installer.commitAll
  split
  · simp [Installer.commitFrom, hexecute]
  · simp [hexecute]

/-- Ending the transaction makes its queries last, or fails and leaves nothing. -/
theorem finish_spec (dialect : Dialect) (settings : Settings) (c : Connection) :
    (∃ queries, c.pending = some queries ∧
      (Installer.finish (engine dialect) settings c).outcome = .ok () ∧
      (Installer.finish (engine dialect) settings c).state.durable = c.durable ++ queries) ∨
    (∃ e, (Installer.finish (engine dialect) settings c).outcome = .error e) ∧
      (Installer.finish (engine dialect) settings c).state.durable = c.durable := by
  have hcommit := commitAll_spec dialect settings c
  unfold Installer.finish
  generalize Installer.commitAll (engine dialect) settings c = committed at hcommit ⊢
  obtain ⟨notices, outcome, state⟩ := committed
  rcases hcommit with ⟨rfl, queries, hpending, hdurable⟩ | ⟨⟨e, rfl⟩, hstore⟩
  · exact .inl ⟨queries, hpending, rfl, hdurable⟩
  · have hdurable : state.durable = c.durable := congrArg Store.durable hstore
    cases e with
    | setting fault => exact .inr ⟨⟨_, rfl⟩, hdurable⟩
    | engine cause =>
        obtain ⟨herror, hrecover⟩ := recover_spec dialect cause none state
        exact .inr ⟨herror, hrecover.trans hdurable⟩

theorem finish_of_pending {queries : List Query} (dialect : Dialect) (settings : Settings)
    (hpending : c.pending = some queries) (hfault : c.faults.head = none) :
    (Installer.finish (engine dialect) settings c).outcome = .ok () ∧
      (Installer.finish (engine dialect) settings c).state.durable = c.durable ++ queries := by
  obtain ⟨hok, hdurable⟩ := commitAll_of_pending dialect settings hpending hfault
  unfold Installer.finish
  generalize Installer.commitAll (engine dialect) settings c = committed at hok hdurable ⊢
  obtain ⟨notices, outcome, state⟩ := committed
  obtain rfl : outcome = .ok () := hok
  exact ⟨rfl, hdurable⟩

end Connection

end Restate
