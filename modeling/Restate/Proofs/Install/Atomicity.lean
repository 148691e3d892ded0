import Restate.Proofs.Install.Connection
import Restate.Proofs.Restatement

/-!
# Atomic installation

An installation is to make all queries of a batch last, or none. Queries that are transaction
control themselves may end the installer's transaction early. Which sequences of roles leave it
whole is told by an automaton over the roles (`Phase.keepsWhole`). Main statement: a batch is
installed atomically, whatever fails on the connection, just if the automaton accepts its queries
(`install_atomic_iff`).
-/

namespace Restate

open Connection (engine)

/-- Where a run of queries stands. -/
inductive Phase where
  /-- In a transaction, which holds something if `pending`; something was undone if `lost`. -/
  | inside (pending lost : Bool)
  /-- In no transaction. Something was undone before if `lost`. -/
  | outside (lost : Bool)
  deriving DecidableEq, Repr

/-- What becomes of a run at a query. -/
inductive Fate where
  /-- It goes on, unless the query fails. -/
  | goes (phase : Phase)
  /-- The query is refused. -/
  | stops
  /-- Something lasts, and what comes next may still fail. -/
  | breaks
  deriving DecidableEq, Repr

namespace Phase

/-- What becomes of a run at a query of the given role. -/
def fate : Phase → Role → Fate
  | .inside _ lost, .work => .goes (.inside true lost)
  | .inside _ _, .begin => .stops
  | .inside pending lost, .commit => if pending then .breaks else .goes (.outside lost)
  | .inside pending lost, .rollback => .goes (.outside (lost || pending))
  | .outside _, .work => .breaks
  | .outside lost, .begin => .goes (.inside false lost)
  | .outside _, .commit => .stops
  | .outside _, .rollback => .stops

/-- Whether queries of the given roles, and a commit after them, leave all or nothing. -/
def keepsWhole : Phase → List Role → Bool
  | .inside _ lost, [] => !lost
  | .outside _, [] => true
  | phase, role :: roles =>
    match phase.fate role with
    | .goes next => keepsWhole next roles
    | .stops => true
    | .breaks => false

/-- The store is as it has to be in a phase: nothing more lasts than before the run, and `done` are
the queries run so far that are no transaction control. -/
def Fits (before done : List Query) (s : Store) : Phase → Prop
  | .inside pending lost =>
    s.durable = before ∧ ∃ queries, s.pending = some queries ∧ (pending = true ↔ queries ≠ []) ∧
      if lost then queries.length < done.length else queries = done
  | .outside lost =>
    s.durable = before ∧ s.pending = none ∧ if lost then done ≠ [] else done = []

end Phase

/-- What a stage leaves behind: the given queries last if it succeeds, and nothing more than before
if it fails. -/
def Leaves {ε : Type} (before works : List Query) (stage : Installer.Stage Connection ε) : Prop :=
  match stage.outcome with
  | .ok () => stage.state.durable = before ++ works
  | .error _ => stage.state.durable = before

variable {dialect : Dialect} {settings : Settings} {query : Query} {queries : List Query}
  {before done : List Query} {phase : Phase} {s : Store} {c : Connection}

namespace Installer

/-- What is left of a transaction once it is open. -/
def conclude (engine : Engine Connection) (settings : Settings) (queries : List Query)
    (c : Connection) : Stage Connection InstallError :=
  match runQueries engine queries c with
  | (.error (e, command), c) => recover engine e (some command) c
  | (.ok (), c) => finish engine settings c

theorem conclude_cons_ok {c' : Connection}
    (h : c.execute (dialect.role query.command) query = (.ok (), c')) :
    conclude (engine dialect) settings (query :: queries) c =
      conclude (engine dialect) settings queries c' := by
  have hengine : (engine dialect).execute query.command (some query.params) c = (.ok (), c') := h
  simp [conclude, runQueries, hengine]

theorem conclude_cons_error {e : EngineError} {c' : Connection}
    (h : c.execute (dialect.role query.command) query = (.error e, c')) :
    conclude (engine dialect) settings (query :: queries) c =
      recover (engine dialect) e (some query.command) c' := by
  have hengine : (engine dialect).execute query.command (some query.params) c = (.error e, c') := h
  simp [conclude, runQueries, hengine]

end Installer

namespace Phase

/-- Where a run goes on, a query that meets no failure leads to the next phase. -/
theorem run_of_goes {next : Phase} {role : Role} (hfits : phase.Fits before done s)
    (hfate : phase.fate role = .goes next) (query : Query) :
    ∃ s', s.run role query = some s' ∧
      next.Fits before (done ++ if role = .work then [query] else []) s' := by
  obtain ⟨durable, open_⟩ := s
  cases phase with
  | inside pending lost =>
      obtain ⟨rfl, queries, rfl, hpending, hdone⟩ := hfits
      cases role with
      | work =>
          cases hfate
          refine ⟨_, rfl, rfl, queries ++ [query], rfl, by simp, ?_⟩
          cases lost with
          | true => simpa using hdone
          | false => simpa using hdone
      | begin => simp [fate] at hfate
      | commit =>
          cases pending with
          | true => simp [fate] at hfate
          | false =>
              cases hfate
              obtain rfl : queries = [] := by simpa using hpending
              refine ⟨_, rfl, by simp, rfl, ?_⟩
              cases lost with
              | true => simpa [List.length_pos_iff] using hdone
              | false => simpa using hdone.symm
      | rollback =>
          cases hfate
          refine ⟨_, rfl, rfl, rfl, ?_⟩
          cases lost with
          | true => simpa using List.ne_nil_of_length_pos (Nat.zero_lt_of_lt hdone)
          | false =>
              obtain rfl : queries = done := by simpa using hdone
              cases pending with
              | true => simpa using hpending
              | false => simpa using hpending
  | outside lost =>
      obtain ⟨rfl, rfl, hdone⟩ := hfits
      cases role with
      | begin =>
          cases hfate
          refine ⟨_, rfl, rfl, [], rfl, by simp, ?_⟩
          cases lost with
          | true => simpa [List.length_pos_iff] using hdone
          | false => simpa using hdone.symm
      | work => simp [fate] at hfate
      | commit => simp [fate] at hfate
      | rollback => simp [fate] at hfate

/-- Where a run stops, the query is refused. -/
theorem run_of_stops {role : Role} (hfits : phase.Fits before done s)
    (hfate : phase.fate role = .stops) (query : Query) : s.run role query = none := by
  obtain ⟨durable, open_⟩ := s
  cases phase with
  | inside pending lost =>
      obtain ⟨-, queries, rfl, -⟩ := hfits
      cases role with
      | begin => rfl
      | work => simp [fate] at hfate
      | commit => cases pending <;> simp [fate] at hfate
      | rollback => simp [fate] at hfate
  | outside lost =>
      obtain ⟨-, rfl, -⟩ := hfits
      cases role with
      | commit => rfl
      | rollback => rfl
      | begin => simp [fate] at hfate
      | work => simp [fate] at hfate

/-- Where a run breaks, more lasts than before it, and no transaction is open. -/
theorem run_of_breaks {role : Role} (hfits : phase.Fits before done s)
    (hfate : phase.fate role = .breaks) (query : Query) :
    ∃ s', s.run role query = some s' ∧ s'.pending = none ∧ s'.durable ≠ before := by
  obtain ⟨durable, open_⟩ := s
  cases phase with
  | inside pending lost =>
      obtain ⟨rfl, queries, rfl, hpending, -⟩ := hfits
      cases role with
      | commit =>
          cases pending with
          | true => exact ⟨_, rfl, rfl, by simpa using hpending⟩
          | false => simp [fate] at hfate
      | begin => simp [fate] at hfate
      | work => simp [fate] at hfate
      | rollback => simp [fate] at hfate
  | outside lost =>
      obtain ⟨rfl, rfl, -⟩ := hfits
      cases role with
      | work => exact ⟨_, rfl, rfl, by simp⟩
      | begin => simp [fate] at hfate
      | commit => simp [fate] at hfate
      | rollback => simp [fate] at hfate

end Phase

theorem leaves_of_error {ε : Type} {works : List Query} {stage : Installer.Stage Connection ε}
    (herror : ∃ e, stage.outcome = .error e) (hdurable : stage.state.durable = before) :
    Leaves before works stage := by
  obtain ⟨e, he⟩ := herror
  simpa [Leaves, he] using hdurable

theorem Phase.Fits.durable (hfits : phase.Fits before done s) : s.durable = before := by
  cases phase with
  | inside pending lost => exact hfits.1
  | outside lost => exact hfits.1

theorem Dialect.works_cons (query : Query) (queries : List Query) :
    dialect.works (query :: queries) =
      (if dialect.role query.command = .work then [query] else []) ++ dialect.works queries := by
  by_cases h : dialect.role query.command = .work
  · simp [works, h]
  · simp [works, h]

theorem leaves_of_execute_error {e : EngineError} {faults : Stream' (Option EngineError)}
    (hdurable : c.durable = before)
    (h : c.execute (dialect.role query.command) query = (.error e, ⟨c.toStore, faults⟩))
    (works : List Query) :
    Leaves before works (Installer.conclude (engine dialect) settings (query :: queries) c) := by
  rw [Installer.conclude_cons_error h]
  obtain ⟨herror, hrecover⟩ :=
    Connection.recover_spec dialect e (some query.command) ⟨c.toStore, faults⟩
  exact leaves_of_error herror (hrecover.trans hdurable)

/-- Queries whose roles keep the transaction whole leave all or nothing. -/
theorem conclude_leaves (hfits : phase.Fits before done c.toStore)
    (hwhole : phase.keepsWhole (dialect.roles queries) = true) :
    Leaves before (done ++ dialect.works queries)
      (Installer.conclude (engine dialect) settings queries c) := by
  -- the phase fits the store before every query, whatever was done by then
  induction queries generalizing phase done c with
  | nil =>
      rcases Connection.finish_spec dialect settings c with
        ⟨queries, hpending, hok, hdurable⟩ | ⟨herror, hdurable⟩
      · cases phase with
        | inside pending lost =>
            obtain ⟨hbefore, queries', hqueries, -, hdone⟩ := hfits
            obtain rfl : queries' = queries := by simpa [hqueries] using hpending
            obtain rfl : lost = false := by simpa [Phase.keepsWhole, Dialect.roles] using hwhole
            obtain rfl : queries' = done := by simpa using hdone
            simp [Leaves, Installer.conclude, Installer.runQueries, hok, hdurable, hbefore,
              Dialect.works]
        | outside lost => simp [hfits.2.1] at hpending
      · exact leaves_of_error herror (hdurable.trans hfits.durable)
  | cons query queries ih =>
      rw [Dialect.roles, List.map_cons, Phase.keepsWhole] at hwhole
      rw [Dialect.works_cons, ← List.append_assoc]
      cases hfate : phase.fate (dialect.role query.command) with
      | goes next =>
          rw [hfate] at hwhole
          obtain ⟨s, hrun, hnext⟩ := Phase.run_of_goes hfits hfate query
          rcases Connection.execute_cases (dialect.role query.command) query c with
            ⟨s', hrun', hexecute⟩ | ⟨e, hexecute⟩
          · obtain rfl : s = s' := by simpa [hrun] using hrun'
            rw [Installer.conclude_cons_ok hexecute]
            exact ih hnext hwhole
          · exact leaves_of_execute_error hfits.durable hexecute _
      | stops =>
          obtain ⟨e, hexecute⟩ :=
            Connection.execute_of_refused (Phase.run_of_stops hfits hfate query)
          exact leaves_of_execute_error hfits.durable hexecute _
      | breaks => simp [hfate] at hwhole

/-- A failure outside a transaction leaves what lasts already. -/
theorem conclude_of_fault {e : EngineError} (dialect : Dialect) (settings : Settings)
    (queries : List Query)
    (hpending : c.pending = none) (hfault : c.faults.head = some e) :
    (∃ e, (Installer.conclude (engine dialect) settings queries c).outcome = .error e) ∧
      (Installer.conclude (engine dialect) settings queries c).state.durable = c.durable := by
  cases queries with
  | nil =>
      rcases Connection.finish_spec dialect settings c with ⟨_, hqueries, -⟩ | h
      · simp [hpending] at hqueries
      · exact h
  | cons query queries =>
      have hexecute : ∃ e, c.execute (dialect.role query.command) query =
          (.error e, ⟨c.toStore, c.faults.tail⟩) := by
        by_cases hrole : dialect.role query.command = .rollback
        · rw [hrole]
          exact Connection.execute_of_refused (by simp [Store.run, hpending])
        · exact ⟨e, Connection.execute_of_fault hrole hfault⟩
      obtain ⟨e, hexecute⟩ := hexecute
      rw [Installer.conclude_cons_error hexecute]
      exact Connection.recover_spec dialect e _ _

/-- Queries whose roles do not keep the transaction whole leave something else for some pattern of
failures. -/
theorem exists_not_leaves (settings : Settings) (hfits : phase.Fits before done s)
    (hbroken : phase.keepsWhole (dialect.roles queries) = false) :
    ∃ faults, ¬ Leaves before (done ++ dialect.works queries)
      (Installer.conclude (engine dialect) settings queries ⟨s, faults⟩) := by
  -- no failure strikes before the query that breaks the transaction, so the phase still fits there
  induction queries generalizing phase done s with
  | nil =>
      cases phase with
      | outside lost => simp [Phase.keepsWhole, Dialect.roles] at hbroken
      | inside pending lost =>
          obtain ⟨hbefore, queries, hqueries, -, hdone⟩ := hfits
          obtain rfl : lost = true := by simpa [Phase.keepsWhole, Dialect.roles] using hbroken
          refine ⟨Stream'.const none, ?_⟩
          intro hleaves
          obtain ⟨hok, hdurable⟩ :=
            Connection.finish_of_pending (c := ⟨s, Stream'.const none⟩) dialect settings hqueries
              rfl
          simp only [Leaves, Installer.conclude, Installer.runQueries, hok] at hleaves
          rw [hdurable, hbefore, List.append_cancel_left_eq] at hleaves
          simp [hleaves, Dialect.works] at hdone
  | cons query queries ih =>
      rw [Dialect.roles, List.map_cons, Phase.keepsWhole] at hbroken
      rw [Dialect.works_cons, ← List.append_assoc]
      cases hfate : phase.fate (dialect.role query.command) with
      | goes next =>
          rw [hfate] at hbroken
          obtain ⟨s', hrun, hnext⟩ := Phase.run_of_goes hfits hfate query
          obtain ⟨faults, hfaults⟩ := ih hnext hbroken
          refine ⟨Stream'.cons none faults, ?_⟩
          rw [Installer.conclude_cons_ok (Connection.execute_of_run hrun rfl)]
          exact hfaults
      | stops => simp [hfate] at hbroken
      | breaks =>
          obtain ⟨s', hrun, hnone, hdurable⟩ := Phase.run_of_breaks hfits hfate query
          refine ⟨Stream'.cons none (Stream'.const (some Connection.refusal)), ?_⟩
          rw [Installer.conclude_cons_ok (Connection.execute_of_run hrun rfl)]
          obtain ⟨⟨e, herror⟩, hleft⟩ := conclude_of_fault dialect settings queries
            (c := ⟨s', Stream'.const (some Connection.refusal)⟩) hnone rfl
          intro hleaves
          change Leaves _ _
            (Installer.conclude (engine dialect) settings queries ⟨s', Stream'.const _⟩) at hleaves
          simp only [Leaves, herror] at hleaves
          exact hdurable (hleft.symm.trans hleaves)

theorem fits_begun (before : List Query) :
    (Phase.inside false false).Fits before [] ⟨before, some []⟩ :=
  ⟨rfl, [], rfl, by simp, rfl⟩

theorem transact_of_begin {s : Store}
    (h : c.execute .begin ⟨Installer.begin, []⟩ = (.ok (), ⟨s, c.faults.tail⟩)) :
    Installer.transact (engine dialect) settings queries c =
      Installer.conclude (engine dialect) settings queries ⟨s, c.faults.tail⟩ := by
  have hengine : (engine dialect).execute Installer.begin none c =
      (.ok (), ⟨s, c.faults.tail⟩) := by
    simpa [engine, dialect.role_begin] using h
  unfold Installer.transact Installer.conclude
  rw [hengine]
  dsimp only
  generalize Installer.runQueries (engine dialect) queries ⟨s, c.faults.tail⟩ = run
  obtain ⟨outcome, c'⟩ := run
  cases outcome with
  | error failure => rfl
  | ok u => rfl

/-- A transaction of queries whose roles keep it whole leaves all or nothing. -/
theorem transact_leaves
    (hwhole : (Phase.inside false false).keepsWhole (dialect.roles queries) = true)
    (c : Connection) :
    Leaves c.durable (dialect.works queries)
      (Installer.transact (engine dialect) settings queries c) := by
  rcases Connection.execute_cases .begin ⟨Installer.begin, []⟩ c with
    ⟨s, hrun, hexecute⟩ | ⟨e, hexecute⟩
  · obtain ⟨⟨durable, open_⟩, faults⟩ := c
    cases open_ with
    | some queries => simp [Store.run] at hrun
    | none =>
        obtain rfl : ⟨durable, some []⟩ = s := by simpa [Store.run] using hrun
        rw [transact_of_begin hexecute]
        exact conclude_leaves (c := ⟨⟨durable, some []⟩, faults.tail⟩) (fits_begun durable) hwhole
  · have hengine : (engine dialect).execute Installer.begin none c =
        (.error e, ⟨c.toStore, c.faults.tail⟩) := by
      simpa [engine, dialect.role_begin] using hexecute
    obtain ⟨herror, hdurable⟩ := Connection.recover_spec dialect e none ⟨c.toStore, c.faults.tail⟩
    simp only [Installer.transact, hengine]
    exact leaves_of_error herror hdurable

/-- What an installation leaves behind: the given queries last if it succeeds, and nothing more than
before if it fails. -/
def Atomic (works : List Query) (c : Connection)
    (result : Installer.Installation × Connection) : Prop :=
  match result.1.outcome with
  | .ok _ => result.2.durable = c.durable ++ works
  | .error _ => result.2.durable = c.durable

/-- An installation is atomic just if its transaction is, on the connection as it is opened. -/
theorem atomic_install_iff {database batch : Text} {supplied : Bool}
    (hbatch : (BatchReport.ofBatch settings batch).outcome = .ok queries) (c : Connection) :
    Atomic (dialect.works queries) c
        (Installer.install (engine dialect) settings database supplied batch c) ↔
      Leaves c.durable (dialect.works queries) (Installer.transact (engine dialect) settings queries
        (if supplied then c else c.dropped)) := by
  simp only [Installer.install, hbatch]
  cases supplied with
  | true =>
      simp only [if_true, Installer.transactAt]
      generalize Installer.transact (engine dialect) settings queries c = stage
      obtain ⟨notices, outcome, state⟩ := stage
      cases outcome with
      | error e => rfl
      | ok u => rfl
  | false =>
      simp only [Bool.false_eq_true, if_false, Installer.transactAt]
      change _ ↔ Leaves c.durable _
        (Installer.transact (engine dialect) settings queries ((engine dialect).connect database c))
      generalize Installer.transact (engine dialect) settings queries
        ((engine dialect).connect database c) = stage
      obtain ⟨notices, outcome, state⟩ := stage
      cases outcome with
      | error e => rfl
      | ok u => rfl

/-- A batch that is restated is installed atomically, whatever fails on the connection, just if the
roles of its queries keep the transaction whole. -/
theorem install_atomic_iff (dialect : Dialect) (settings : Settings) (database batch : Text)
    (supplied : Bool) (queries : List Query)
    (hbatch : (BatchReport.ofBatch settings batch).outcome = .ok queries) :
    (∀ c : Connection, Atomic (dialect.works queries) c
      (Installer.install (engine dialect) settings database supplied batch c)) ↔
    (Phase.inside false false).keepsWhole (dialect.roles queries) = true := by
  constructor
  · intro hatomic
    by_contra hbroken
    obtain ⟨faults, hfaults⟩ := exists_not_leaves settings (fits_begun [])
      (by simpa using hbroken)
    -- the failures come after the installer's own `BEGIN`
    have hleaves := (atomic_install_iff hbatch _).1
      (hatomic ⟨⟨[], none⟩, Stream'.cons none faults⟩)
    have htransact : Installer.transact (engine dialect) settings queries
        ⟨⟨[], none⟩, Stream'.cons none faults⟩ =
          Installer.conclude (engine dialect) settings queries ⟨⟨[], some []⟩, faults⟩ :=
      transact_of_begin rfl
    apply hfaults
    rw [List.nil_append, ← htransact]
    cases supplied with
    | true => exact hleaves
    | false => exact hleaves
  · intro hwhole c
    rw [atomic_install_iff hbatch]
    cases supplied with
    | true => exact transact_leaves hwhole c
    | false => exact transact_leaves hwhole c.dropped

/-- A batch without transaction control is installed atomically. -/
theorem install_atomic_of_table :
    ∃ settings queries, Settings.load .builtIn = .ok settings ∧
      (BatchReport.ofBatch settings "CREATE TABLE a (x int)").outcome = .ok queries ∧
      ∀ c : Connection, Atomic (Dialect.words.works queries) c
        (Installer.install (engine Dialect.words) settings "db" false "CREATE TABLE a (x int)"
          c) := by
  obtain ⟨settings, hload, h⟩ := exists_of_passes (show passes (fun settings =>
      passes (fun queries => (Phase.inside false false).keepsWhole (Dialect.words.roles queries))
        (BatchReport.ofBatch settings "CREATE TABLE a (x int)").outcome)
      (Settings.load .builtIn) = true by decide +kernel)
  obtain ⟨queries, hqueries, hwhole⟩ := exists_of_passes h
  exact ⟨settings, queries, hload, hqueries,
    (install_atomic_iff Dialect.words settings "db" "CREATE TABLE a (x int)" false queries
      hqueries).2 hwhole⟩

/-- A batch that commits between its tables. -/
def committingBatch : Text :=
  "CREATE TABLE a (x int); COMMIT; CREATE TABLE b (y int)"

/-- A connection on which all fails from the fourth operation on. -/
def failingConnection : Connection :=
  ⟨⟨[], none⟩, Stream'.cons none (Stream'.cons none (Stream'.cons none
    (Stream'.const (some ⟨.operational, "disk I/O error", some 10⟩))))⟩

/-- The batch's own commit makes its first table last, although its second one fails. -/
theorem install_not_atomic :
    ∃ settings queries, Settings.load .builtIn = .ok settings ∧
      (BatchReport.ofBatch settings committingBatch).outcome = .ok queries ∧
      ¬ Atomic (Dialect.words.works queries) failingConnection
        (Installer.install (engine Dialect.words) settings "db" false committingBatch
          failingConnection) := by
  obtain ⟨settings, hload, h⟩ := exists_of_passes (show passes (fun settings =>
      let result := Installer.install (engine Dialect.words) settings "db" false committingBatch
        failingConnection
      passes (fun _ => true) (BatchReport.ofBatch settings committingBatch).outcome
        && !passes (fun _ => true) result.1.outcome && result.2.durable.length == 1)
      (Settings.load .builtIn) = true by decide +kernel)
  obtain ⟨h, hlasts⟩ := Bool.and_eq_true_iff.1 h
  obtain ⟨hqueries, hfails⟩ := Bool.and_eq_true_iff.1 h
  obtain ⟨queries, hqueries, -⟩ := exists_of_passes hqueries
  refine ⟨settings, queries, hload, hqueries, ?_⟩
  intro hatomic
  unfold Atomic at hatomic
  split at hatomic
  · next n hok =>
      rw [hok] at hfails
      simp [passes] at hfails
  · next e he =>
      rw [hatomic] at hlasts
      exact absurd hlasts (by decide)

end Restate
