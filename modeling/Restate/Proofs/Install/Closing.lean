import Restate.Proofs.Install.Journal

/-!
# Transactions left open

A database with statements of any meaning, as far as an installation over an open connection sees
it: each statement runs or is refused, and a transaction is open or not. Any statement but a
`ROLLBACK` may be met by a failure, in a pattern that is fixed beforehand and otherwise arbitrary.
Only two things are refused outside the database: a command that is no text, and a pause that
cannot be made. Neither is answered by a rollback.

Main statement: an installation closes its transaction whatever failures it meets, just if neither
can happen while the transaction is open (`install_closes_iff`).
-/

namespace Restate

def Command.isText : Command → Bool
  | .sql _ => true
  | .setting _ => false

/-- A database. A commit that is not refused ends the open transaction, and a rollback of it is not
refused and ends it. -/
structure Database (σ : Type) where
  /-- What a statement does, if it is not refused. -/
  run : Text → Fields Text → σ → Option σ
  /-- Whether a transaction is open. -/
  isOpen : σ → Bool
  isOpen_commit : ∀ {s s' : σ}, run "COMMIT" [] s = some s' → isOpen s' = false
  run_rollback : ∀ {s : σ}, isOpen s = true →
    ∃ s', run "ROLLBACK" [] s = some s' ∧ isOpen s' = false

/-- A failure that a statement meets. -/
structure Fault where
  error : EngineError
  /-- Whether the database rolls its transaction back by itself. -/
  rollsBack : Bool

/-- A database, and the failures that the statements will meet, one after another. -/
structure Session (σ : Type) where
  state : σ
  faults : Stream' (Option Fault)

/-- All failures are the database's own. -/
def Session.FailsByDatabase {σ : Type} (c : Session σ) : Prop :=
  ∀ n fault, c.faults n = some fault → fault.error.isDatabase = true

namespace Database

variable {σ : Type} (db : Database σ)

/-- The state without an open transaction. -/
def rolledBack (s : σ) : σ :=
  if db.isOpen s then (db.run "ROLLBACK" [] s).getD s else s

@[simp] theorem isOpen_rolledBack (s : σ) : db.isOpen (db.rolledBack s) = false := by
  unfold rolledBack
  split
  · next hopen =>
      obtain ⟨s', hrun, hclosed⟩ := db.run_rollback hopen
      rw [hrun]
      exact hclosed
  · next hclosed => simpa using hclosed

/-- How a command is refused that is no text. -/
def misuse : EngineError :=
  ⟨.foreign "TypeError", "execute() argument 1 must be str", none⟩

/-- How a pause is refused. -/
def noPause : EngineError :=
  ⟨.foreign "ValueError", "sleep length must be non-negative", none⟩

/-- Runs a statement. -/
def execute (text : Text) (params : Fields Text) (c : Session σ) :
    Except EngineError Unit × Session σ :=
  match (if text = "ROLLBACK".toList then none else c.faults.head) with
  | some fault =>
    let s := if fault.rollsBack then db.rolledBack c.state else c.state
    (.error fault.error, ⟨s, c.faults.tail⟩)
  | none =>
    match db.run text params c.state with
    | some s => (.ok (), ⟨s, c.faults.tail⟩)
    | none => (.error Connection.refusal, ⟨c.state, c.faults.tail⟩)

/-- The database as an engine, with the lengths of the pauses that can be made. -/
def engine (pauses : Double → Bool) : Engine (Session σ) where
  connect _ c := { c with state := db.rolledBack c.state }
  execute command params c :=
    match command with
    | .sql text => db.execute text (params.getD []) c
    | .setting _ => (.error misuse, c)
  inTransaction c := db.isOpen c.state
  sleep _ c := c
  pauseFault? length := if pauses length then none else some noPause
  close c := { c with state := db.rolledBack c.state }

/-- The state after queries that all run. -/
def runAll : List Query → σ → Option σ
  | [], s => some s
  | query :: more, s =>
    match query.command with
    | .sql text => (db.run text query.params s).bind (runAll more)
    | .setting _ => none

end Database

/-- The settings say how a lock is waited for, if it is waited for at all. -/
def Settings.Patient (settings : Settings) (pauses : Double → Bool) : Prop :=
  ∃ limit, settings.maxRetries = .ok limit ∧
    (limit ≤ 0 ∨ ∃ delay, settings.retryDelay = .ok delay ∧ pauses delay = true)

/-- An installation over the state may stop where nothing answers: at a command that is no text
inside an open transaction, or at a lock when the queries have left the transaction open and the
settings do not say how it is waited for. -/
inductive Strands {σ : Type} (db : Database σ) (pauses : Double → Bool) (settings : Settings)
    (queries : List Query) (s : σ) : Prop where
  | atCommand {begun reached : σ} {before after : List Query} {query : Query}
      (hbegin : db.run "BEGIN" [] s = some begun) (hqueries : queries = before ++ query :: after)
      (hreached : db.runAll before begun = some reached) (hopen : db.isOpen reached = true)
      (hcommand : query.command.isText = false)
  | atLock {begun reached : σ} (hbegin : db.run "BEGIN" [] s = some begun)
      (hreached : db.runAll queries begun = some reached) (hopen : db.isOpen reached = true)
      (himpatient : ¬ settings.Patient pauses)

/-- Nothing is stranded where all commands are texts and the settings are patient. -/
theorem not_strands {σ : Type} {db : Database σ} {pauses : Double → Bool} {settings : Settings}
    {queries : List Query} {s : σ}
    (htext : (queries.all fun query => query.command.isText) = true)
    (hpatient : settings.Patient pauses) : ¬ Strands db pauses settings queries s := by
  intro h
  cases h with
  | @atCommand _ _ before after query _ hqueries _ _ hcommand =>
      have hquery := List.all_eq_true.1 htext query (by simp [hqueries])
      exact Bool.false_ne_true (hcommand.symm.trans hquery)
  | atLock _ _ _ himpatient => exact himpatient hpatient

namespace Database

variable {σ : Type} {db : Database σ} {pauses : Double → Bool} {settings : Settings}
  {queries : List Query} {c : Session σ}

theorem failsByDatabase_tail {s : σ} (h : c.FailsByDatabase) :
    Session.FailsByDatabase ⟨s, c.faults.tail⟩ :=
  fun n fault hfault => h (n + 1) fault hfault

theorem execute_of_not_text {command : Command} {params : Option (Fields Text)}
    (pauses : Double → Bool) (h : command.isText = false) :
    (db.engine pauses).execute command params c = (.error misuse, c) := by
  cases command with
  | sql text => cases h
  | setting value => rfl

/-- A statement runs, or it fails in the database's way and opens nothing. -/
theorem execute_cases (db : Database σ) (h : c.FailsByDatabase) (text : Text)
    (params : Fields Text) :
    (∃ s, db.run text params c.state = some s ∧
      db.execute text params c = (.ok (), ⟨s, c.faults.tail⟩)) ∨
    ∃ e s, e.isDatabase = true ∧ (db.isOpen c.state = false → db.isOpen s = false) ∧
      db.execute text params c = (.error e, ⟨s, c.faults.tail⟩) := by
  unfold execute
  split
  · next fault hfault =>
      refine .inr ⟨_, _, ?_, ?_, rfl⟩
      · split at hfault
        · cases hfault
        · exact h 0 fault hfault
      · intro hclosed
        split
        · exact db.isOpen_rolledBack _
        · exact hclosed
  · cases hrun : db.run text params c.state with
    | some s => exact .inl ⟨s, rfl, rfl⟩
    | none => exact .inr ⟨_, _, rfl, id, rfl⟩

theorem execute_commit_cases (db : Database σ) (pauses : Double → Bool) (h : c.FailsByDatabase) :
    (∃ s, db.isOpen s = false ∧ (db.engine pauses).execute Installer.commit none c =
      (.ok (), ⟨s, c.faults.tail⟩)) ∨
    ∃ e s, e.isDatabase = true ∧ (db.isOpen c.state = false → db.isOpen s = false) ∧
      (db.engine pauses).execute Installer.commit none c = (.error e, ⟨s, c.faults.tail⟩) := by
  rcases execute_cases db h "COMMIT" [] with ⟨s, hrun, hs⟩ | herror
  · exact .inl ⟨s, db.isOpen_commit hrun, hs⟩
  · exact .inr herror

theorem execute_rollback (pauses : Double → Bool) (hopen : db.isOpen c.state = true) :
    ∃ s, db.isOpen s = false ∧ (db.engine pauses).execute Installer.rollback none c =
      (.ok (), ⟨s, c.faults.tail⟩) := by
  obtain ⟨s, hrun, hclosed⟩ := db.run_rollback hopen
  refine ⟨s, hclosed, ?_⟩
  change db.execute "ROLLBACK" [] c = _
  rw [execute, if_pos rfl, hrun]

/-- A failure of the database is answered, and any other one leaves what it finds. -/
theorem isOpen_recover {cause : EngineError} (pauses : Double → Bool) (query : Option Command)
    (h : db.isOpen c.state = false ∨ cause.isDatabase = true) :
    db.isOpen (Installer.recover (db.engine pauses) cause query c).state.state = false := by
  have hinside : (db.engine pauses).inTransaction c = db.isOpen c.state := rfl
  unfold Installer.recover
  rw [hinside]
  cases hopen : db.isOpen c.state with
  | false =>
      split
      · exact hopen
      · exact hopen
  | true =>
      obtain ⟨s, hclosed, hexecute⟩ := execute_rollback pauses hopen
      have hdatabase : cause.isDatabase = true := h.resolve_left (by simp [hopen])
      rw [hdatabase, if_pos rfl, hexecute]
      exact hclosed

/-- The stage ends outside a transaction, or with a failure that is answered. -/
def Answered (db : Database σ) (stage : Installer.Stage (Session σ) Installer.Interruption) :
    Prop :=
  db.isOpen stage.state.state = false ∨
    ∃ e, stage.outcome = .error (.engine e) ∧ e.isDatabase = true

/-- Attempts to commit are answered, if the next pause can be made or there is nothing to close. -/
theorem commitFrom_answered {patience : Installer.Patience} {attempt left : Nat}
    (h : c.FailsByDatabase)
    (hpatience : db.isOpen c.state = true → left = 0 ∨
      ∃ delay, patience.delay = .ok delay ∧ pauses delay = true) :
    db.Answered (Installer.commitFrom (db.engine pauses) patience attempt left c) := by
  induction left generalizing attempt c with
  | zero =>
      unfold Installer.commitFrom
      rcases execute_commit_cases db pauses h with ⟨s, hclosed, hs⟩ | ⟨e, s, he, -, hs⟩
      · rw [hs]
        exact .inl hclosed
      · rw [hs]
        dsimp only
        split
        · exact .inr ⟨e, rfl, he⟩
        · exact .inr ⟨e, rfl, he⟩
  | succ left ih =>
      unfold Installer.commitFrom
      rcases execute_commit_cases db pauses h with ⟨s, hclosed, hs⟩ | ⟨e, s, he, hstays, hs⟩
      · rw [hs]
        exact .inl hclosed
      · rw [hs]
        dsimp only
        split
        · exact .inr ⟨e, rfl, he⟩
        · by_cases hwait : ∃ delay, patience.delay = .ok delay ∧ pauses delay = true
          · obtain ⟨delay, hdelay, hpause⟩ := hwait
            simp only [engine, hdelay, hpause]
            exact ih (failsByDatabase_tail h) fun _ => .inr ⟨delay, hdelay, hpause⟩
          · -- then nothing was open, and a failed attempt opens nothing
            have hclosed : db.isOpen c.state = false := by
              by_contra hopen
              exact hwait ((hpatience (by simpa using hopen)).resolve_left (Nat.succ_ne_zero left))
            cases hdelay : patience.delay with
            | error fault => exact .inl (hstays hclosed)
            | ok delay =>
                have hpause : pauses delay = false := by simpa [hdelay] using hwait
                simp only [engine, hpause]
                exact .inl (hstays hclosed)

theorem commitAll_answered (h : c.FailsByDatabase)
    (hpatient : db.isOpen c.state = true → settings.Patient pauses) :
    db.Answered (Installer.commitAll (db.engine pauses) settings c) := by
  unfold Installer.commitAll
  split
  · next limit hlimit =>
      refine commitFrom_answered h fun hopen => ?_
      obtain ⟨limit', hlimit', hwait⟩ := hpatient hopen
      obtain rfl : limit = limit' := by simpa [hlimit] using hlimit'
      exact hwait.imp_left Int.toNat_of_nonpos
  · next fault hfault =>
      have hclosed : db.isOpen c.state = false := by
        by_contra hopen
        obtain ⟨limit, hlimit, -⟩ := hpatient (by simpa using hopen)
        simp [hfault] at hlimit
      rcases execute_commit_cases db pauses h with ⟨s, hended, hs⟩ | ⟨e, s, -, hstays, hs⟩
      · rw [hs]
        exact .inl hended
      · rw [hs]
        exact .inl (hstays hclosed)

theorem isOpen_finish (h : c.FailsByDatabase)
    (hpatient : db.isOpen c.state = true → settings.Patient pauses) :
    db.isOpen (Installer.finish (db.engine pauses) settings c).state.state = false := by
  have hanswered := commitAll_answered h hpatient
  unfold Installer.finish
  generalize Installer.commitAll (db.engine pauses) settings c = committed at hanswered ⊢
  obtain ⟨notices, outcome, state⟩ := committed
  rcases hanswered with hclosed | ⟨e, rfl, he⟩
  · rcases outcome with (e | fault) | u
    · exact isOpen_recover pauses none (.inl hclosed)
    · exact hclosed
    · exact hclosed
  · exact isOpen_recover pauses none (.inr he)

/-- Queries run as they do without failures, up to a failure of the database or to a command that is
no text. -/
theorem runQueries_cases (db : Database σ) (pauses : Double → Bool) (queries : List Query)
    (h : c.FailsByDatabase) :
    ∃ c', c'.FailsByDatabase ∧
      ((Installer.runQueries (db.engine pauses) queries c = (.ok (), c') ∧
          db.runAll queries c.state = some c'.state) ∨
        ∃ e command, Installer.runQueries (db.engine pauses) queries c =
            (.error (e, command), c') ∧
          (e.isDatabase = true ∨ ∃ before after query,
            queries = before ++ query :: after ∧ db.runAll before c.state = some c'.state ∧
              query.command.isText = false)) := by
  induction queries generalizing c with
  | nil => exact ⟨c, h, .inl ⟨rfl, rfl⟩⟩
  | cons query queries ih =>
      cases hcommand : query.command with
      | setting value =>
          have htext : query.command.isText = false := by rw [hcommand, Command.isText]
          refine ⟨c, h, .inr ⟨misuse, query.command, ?_, .inr ⟨[], queries, query, rfl, rfl,
            htext⟩⟩⟩
          rw [Installer.runQueries, execute_of_not_text pauses htext]
      | sql text =>
          have hexecute : (db.engine pauses).execute query.command (some query.params) c =
              db.execute text query.params c := by simp [engine, hcommand]
          have htail : ∀ s, Session.FailsByDatabase ⟨s, c.faults.tail⟩ := fun s =>
            failsByDatabase_tail h
          unfold Installer.runQueries
          rw [hexecute]
          rcases execute_cases db h text query.params with
            ⟨s, hrun, hs⟩ | ⟨e, s, he, -, hs⟩
          · rw [hs]
            have hfirst : ∀ more, db.runAll (query :: more) c.state = db.runAll more s := by
              intro more
              simp [runAll, hcommand, hrun]
            obtain ⟨c', hc', ⟨hrest, hall⟩ | ⟨e, command, hrest, hstop⟩⟩ := ih (htail s)
            · exact ⟨c', hc', .inl ⟨hrest, (hfirst _).trans hall⟩⟩
            · refine ⟨c', hc', .inr ⟨e, command, hrest, hstop.imp_right ?_⟩⟩
              rintro ⟨before, after, last, rfl, hbefore, hlast⟩
              exact ⟨query :: before, after, last, rfl, (hfirst _).trans hbefore, hlast⟩
          · rw [hs]
            exact ⟨_, htail s, .inr ⟨e, query.command, rfl, .inl he⟩⟩

/-- Where nothing can strand a transaction, it is closed. -/
theorem isOpen_transact (h : c.FailsByDatabase)
    (hfree : ¬ Strands db pauses settings queries c.state) :
    db.isOpen (Installer.transact (db.engine pauses) settings queries c).state.state = false := by
  have hexecute : (db.engine pauses).execute Installer.begin none c =
      db.execute "BEGIN" [] c := rfl
  unfold Installer.transact
  rw [hexecute]
  rcases execute_cases db h "BEGIN" [] with ⟨begun, hbegin, hs⟩ | ⟨e, s, he, -, hs⟩
  · rw [hs]
    dsimp only
    obtain ⟨c', hc', ⟨hrun, hreached⟩ | ⟨e, command, hrun, hstop⟩⟩ :=
      runQueries_cases db (c := ⟨begun, c.faults.tail⟩) pauses queries
        (failsByDatabase_tail h)
    · rw [hrun]
      refine isOpen_finish hc' fun hopen => ?_
      by_contra himpatient
      exact hfree (.atLock hbegin hreached hopen himpatient)
    · rw [hrun]
      refine isOpen_recover pauses _ (hstop.symm.imp_left ?_)
      rintro ⟨before, after, query, hqueries, hreached, hcommand⟩
      by_contra hopen
      exact hfree (.atCommand hbegin hqueries hreached (by simpa using hopen) hcommand)
  · rw [hs]
    exact isOpen_recover pauses none (.inr he)

/-- A lock that leaves the transaction open. -/
def lock : Fault :=
  ⟨⟨.operational, "database is locked", some 5⟩, false⟩

/-- A pattern of failures: some statements meet none, and all that follow meet a lock. -/
def lockAfter (calm : Nat) : Stream' (Option Fault) :=
  fun n => if n < calm then none else some lock

theorem tail_lockAfter (calm : Nat) : (lockAfter (calm + 1)).tail = lockAfter calm := by
  funext n
  change lockAfter (calm + 1) (n + 1) = lockAfter calm n
  simp [lockAfter]

theorem failsByDatabase_lockAfter (calm : Nat) (s : σ) :
    Session.FailsByDatabase ⟨s, lockAfter calm⟩ := by
  intro n fault hfault
  obtain ⟨-, rfl⟩ : ¬ n < calm ∧ lock = fault := by simpa [lockAfter] using hfault
  rfl

theorem execute_of_calm {text : Text} {params : Fields Text} {s s' : σ} (calm : Nat)
    (hrun : db.run text params s = some s') :
    db.execute text params ⟨s, lockAfter (calm + 1)⟩ = (.ok (), ⟨s', lockAfter calm⟩) := by
  have hhead : (lockAfter (calm + 1)).head = none := by
    change lockAfter (calm + 1) 0 = none
    simp [lockAfter]
  simp only [execute, hhead, ite_self, hrun, tail_lockAfter]

theorem runQueries_of_calm (pauses : Double → Bool) {before : List Query} (more : List Query)
    {s s' : σ} (hall : db.runAll before s = some s') :
    Installer.runQueries (db.engine pauses) (before ++ more) ⟨s, lockAfter before.length⟩ =
      Installer.runQueries (db.engine pauses) more ⟨s', lockAfter 0⟩ := by
  induction before generalizing s with
  | nil =>
      obtain rfl : s = s' := by simpa [runAll] using hall
      rfl
  | cons query before ih =>
      cases hcommand : query.command with
      | setting value => simp [runAll, hcommand] at hall
      | sql text =>
          obtain ⟨next, hrun, hrest⟩ : ∃ next, db.run text query.params s = some next ∧
              db.runAll before next = some s' := by
            simpa [runAll, hcommand, Option.bind_eq_some_iff] using hall
          have hexecute : (db.engine pauses).execute query.command (some query.params)
              ⟨s, lockAfter (before.length + 1)⟩ = (.ok (), ⟨next, lockAfter before.length⟩) := by
            rw [← execute_of_calm _ hrun]
            simp [engine, hcommand]
          rw [List.cons_append, List.length_cons, Installer.runQueries, hexecute]
          exact ih hrest

/-- Impatient settings leave a transaction open whose commit meets a lock. -/
theorem isOpen_finish_of_lock {s : σ} (hopen : db.isOpen s = true)
    (himpatient : ¬ settings.Patient pauses) :
    db.isOpen (Installer.finish (db.engine pauses) settings ⟨s, lockAfter 0⟩).state.state =
      true := by
  have hexecute : (db.engine pauses).execute Installer.commit none ⟨s, lockAfter 0⟩ =
      (.error lock.error, ⟨s, (lockAfter 0).tail⟩) := rfl
  have hretriable : lock.error.isRetriable = true := rfl
  cases hlimit : settings.maxRetries with
  | error fault => simpa [Installer.finish, Installer.commitAll, hlimit, hexecute, hretriable]
  | ok limit =>
      obtain ⟨left, hleft⟩ : ∃ left, limit.toNat = left + 1 := by
        refine Nat.exists_eq_succ_of_ne_zero fun hzero => himpatient ⟨limit, hlimit, .inl ?_⟩
        omega
      cases hdelay : settings.retryDelay with
      | error fault =>
          simpa [Installer.finish, Installer.commitAll, Installer.commitFrom, hlimit, hleft, hdelay,
            hexecute, hretriable]
      | ok delay =>
          have hpause : pauses delay = false := by
            by_contra hpause
            exact himpatient ⟨limit, hlimit, .inr ⟨delay, hdelay, by simpa using hpause⟩⟩
          have hfault : (db.engine pauses).pauseFault? delay = some noPause := by
            simp [engine, hpause]
          have hforeign : noPause.isDatabase = false := rfl
          simpa [Installer.finish, Installer.commitAll, Installer.commitFrom, hlimit, hleft, hdelay,
            hexecute, hretriable, hfault, Installer.recover, hforeign]

/-- Where something can strand a transaction, some failures leave it open. -/
theorem exists_isOpen_transact {s : σ} (h : Strands db pauses settings queries s) :
    ∃ calm, db.isOpen (Installer.transact (db.engine pauses) settings queries
      ⟨s, lockAfter calm⟩).state.state = true := by
  have hstart : ∀ {begun calm}, db.run "BEGIN" [] s = some begun →
      (db.engine pauses).execute Installer.begin none ⟨s, lockAfter (calm + 1)⟩ =
        (.ok (), ⟨begun, lockAfter calm⟩) := fun hbegin => execute_of_calm _ hbegin
  cases h with
  | @atCommand begun reached before after query hbegin hqueries hreached hopen hcommand =>
      have hrun : Installer.runQueries (db.engine pauses) queries
          ⟨begun, lockAfter before.length⟩ =
            (.error (misuse, query.command), ⟨reached, lockAfter 0⟩) := by
        rw [hqueries, runQueries_of_calm pauses _ hreached, Installer.runQueries,
          execute_of_not_text pauses hcommand]
      refine ⟨before.length + 1, ?_⟩
      simp only [Installer.transact, hstart hbegin, hrun]
      exact hopen
  | @atLock begun reached hbegin hreached hopen himpatient =>
      have hrun : Installer.runQueries (db.engine pauses) queries
          ⟨begun, lockAfter queries.length⟩ = (.ok (), ⟨reached, lockAfter 0⟩) := by
        have hall := runQueries_of_calm pauses [] hreached
        rwa [List.append_nil] at hall
      refine ⟨queries.length + 1, ?_⟩
      simp only [Installer.transact, hstart hbegin, hrun]
      exact isOpen_finish_of_lock hopen himpatient

end Database

/-- An installation over a connection closes its transaction, whatever failures of the database it
meets and however it ends, just if nothing can strand the transaction of the queries. -/
theorem install_closes_iff {σ : Type} (db : Database σ) (pauses : Double → Bool)
    (settings : Settings) (database batch : Text) {s : σ} (hclosed : db.isOpen s = false) :
    (∀ faults : Stream' (Option Fault), Session.FailsByDatabase ⟨s, faults⟩ →
      db.isOpen (Installer.install (db.engine pauses) settings database true batch
        ⟨s, faults⟩).2.state = false) ↔
    ∀ queries, (BatchReport.ofBatch settings batch).outcome = .ok queries →
      ¬ Strands db pauses settings queries s := by
  constructor
  · intro hcloses queries hbatch hstrands
    obtain ⟨calm, hopen⟩ := Database.exists_isOpen_transact hstrands
    have hleft := hcloses _ (Database.failsByDatabase_lockAfter calm s)
    rw [(Installer.install_of_ok _ hbatch _).2] at hleft
    exact Bool.false_ne_true (hleft.symm.trans hopen)
  · intro hfree faults hfaults
    cases hbatch : (BatchReport.ofBatch settings batch).outcome with
    | error e =>
        simp only [Installer.install, hbatch]
        exact hclosed
    | ok queries =>
        rw [(Installer.install_of_ok _ hbatch _).2]
        exact Database.isOpen_transact hfaults (hfree queries hbatch)

/-- A database that knows transaction control by single words, and whether a transaction is open. -/
def Database.words : Database Bool where
  run text _ inside :=
    match Dialect.words.role (.sql text) with
    | .begin => if inside then none else some true
    | .commit | .rollback => if inside then some false else none
    | .work => some inside
  isOpen inside := inside
  isOpen_commit {inside _} h := by
    cases inside with
    | false => cases h
    | true => exact (Option.some.inj h).symm
  run_rollback {inside} h := by
    cases inside with
    | false => cases h
    | true => exact ⟨false, rfl, rfl⟩

/-- The built-in settings strand no transaction of a batch that creates a table. -/
theorem install_closes_of_builtIn :
    ∃ settings queries, Settings.load .builtIn = .ok settings ∧
      (BatchReport.ofBatch settings "CREATE TABLE a (x int)").outcome = .ok queries ∧
      ∀ faults : Stream' (Option Fault), Session.FailsByDatabase ⟨false, faults⟩ →
        (Installer.install (Database.words.engine Double.isDuration) settings "db" true
          "CREATE TABLE a (x int)" ⟨false, faults⟩).2.state = false := by
  obtain ⟨settings, hload, h⟩ := exists_of_passes (show passes (fun settings =>
      passes (fun queries => queries.all fun query => query.command.isText)
          (BatchReport.ofBatch settings "CREATE TABLE a (x int)").outcome &&
        passes (fun _ => true) settings.maxRetries && passes Double.isDuration settings.retryDelay)
      (Settings.load .builtIn) = true by decide +kernel)
  obtain ⟨h, hdelay⟩ := Bool.and_eq_true_iff.1 h
  obtain ⟨hbatch, hlimit⟩ := Bool.and_eq_true_iff.1 h
  obtain ⟨queries, hbatch, htext⟩ := exists_of_passes hbatch
  obtain ⟨limit, hlimit, -⟩ := exists_of_passes hlimit
  obtain ⟨delay, hdelay, hduration⟩ := exists_of_passes hdelay
  refine ⟨settings, queries, hload, hbatch, ?_⟩
  refine (install_closes_iff Database.words Double.isDuration settings "db"
    "CREATE TABLE a (x int)" rfl).2 fun queries' hbatch' => ?_
  obtain rfl := Except.ok.inj (hbatch.symm.trans hbatch')
  exact not_strands htext ⟨limit, hlimit, .inr ⟨delay, hdelay, hduration⟩⟩

/-- Settings with a word for a number. -/
def wordySettings : Json :=
  .obj [("execution", .obj [("max_retries", .str "x")])]

/-- The fault of the settings with which an installation ended, if it did. -/
def Installer.settingFault? : Except InstallError Nat → Option SettingFault
  | .error (.setting fault) => some fault
  | _ => none

/-- The lock at the commit is met by a setting that is no number, and the transaction stays open. -/
theorem install_not_closes :
    ∃ settings, Settings.load (.value wordySettings) = .ok settings ∧
      Session.FailsByDatabase ⟨false, Database.lockAfter 2⟩ ∧
      (Installer.settingFault? (Installer.install (Database.words.engine Double.isDuration) settings
        "db" true "CREATE TABLE a (x int)" ⟨false, Database.lockAfter 2⟩).1.outcome).isSome ∧
      (Installer.install (Database.words.engine Double.isDuration) settings "db" true
        "CREATE TABLE a (x int)" ⟨false, Database.lockAfter 2⟩).2.state = true := by
  obtain ⟨settings, hload, h⟩ := exists_of_passes (show passes (fun settings =>
      let result := Installer.install (Database.words.engine Double.isDuration) settings "db" true
        "CREATE TABLE a (x int)" ⟨false, Database.lockAfter 2⟩
      (Installer.settingFault? result.1.outcome).isSome && result.2.state)
      (Settings.load (.value wordySettings)) = true by decide +kernel)
  obtain ⟨houtcome, hopen⟩ := Bool.and_eq_true_iff.1 h
  exact ⟨settings, hload, Database.failsByDatabase_lockAfter 2 false, houtcome, hopen⟩

end Restate
