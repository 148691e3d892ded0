import Mathlib.Data.List.Forall2
import Restate.Proofs.Install.Connection
import Restate.Proofs.Restatement

/-!
# Journals of installations

An engine may note each call that is made on it, with how it failed and whether a transaction is
open behind it. An installation in order opens a transaction, runs the queries up to the first that
fails, commits, rolls back where a failure leaves the transaction open, and closes what it opened;
it succeeds just if one of its own commits does (`Orderly`). What breaks the order is a lock at the
commit that is to be waited for, where no pause can be made: the delay is out of range, or the
engine refuses a pause of its length. Main statement: an installation is in order just if that does
not happen (`install_orderly_iff`).
-/

namespace Restate

/-- What is asked of an engine. -/
inductive Request where
  | connect (path : Text)
  | execute (command : Command) (params : Option (Fields Text))
  | pause (length : Double)
  | close

/-- A call on an engine: how it failed, if it did, and whether a transaction is open behind it. -/
structure Call where
  request : Request
  failure : Option EngineError
  inside : Bool

/-- The state of an engine, and the calls made on it so far. -/
structure Journal (σ : Type) where
  state : σ
  calls : List Call

/-- A length that a pause may have. -/
def Double.isDuration : Double → Bool
  | .finite negative mantissa _ => !negative || mantissa == 0
  | .infinite _ => false
  | .nan => false

variable {σ ε : Type}

/-- The journal with one more call, which leads to the given state. -/
def Journal.note (engine : Engine σ) (request : Request) (failure : Option EngineError) (s : σ)
    (j : Journal σ) : Journal σ :=
  ⟨s, j.calls ++ [⟨request, failure, engine.inTransaction s⟩]⟩

/-- The engine with a journal of its calls. -/
def Engine.journaled (engine : Engine σ) : Engine (Journal σ) where
  connect path j := j.note engine (.connect path) none (engine.connect path j.state)
  execute command params j :=
    match engine.execute command params j.state with
    | (.ok (), s) => (.ok (), j.note engine (.execute command params) none s)
    | (.error e, s) => (.error e, j.note engine (.execute command params) (some e) s)
  inTransaction j := engine.inTransaction j.state
  sleep length j := j.note engine (.pause length) none (engine.sleep length j.state)
  pauseFault? := engine.pauseFault?
  close j := j.note engine .close none (engine.close j.state)

/-- Some commands fail in the database's own ways only. -/
def Engine.FailsByDatabase (engine : Engine σ) (commands : List Command) : Prop :=
  ∀ {command : Command} {params : Option (Fields Text)} {s : σ} {e : EngineError} {s' : σ},
    command ∈ commands → engine.execute command params s = (.error e, s') → e.isDatabase = true

/-- A transaction that is open can be rolled back. -/
def Engine.RollsBack (engine : Engine σ) : Prop :=
  ∀ {s : σ}, engine.inTransaction s = true →
    ∃ s', engine.execute Installer.rollback none s = (.ok (), s')

/-- A pause that cannot be made fails outside the database. -/
def Engine.PausesFailOutside (engine : Engine σ) : Prop :=
  ∀ {length : Double} {e : EngineError}, engine.pauseFault? length = some e → e.isDatabase = false

/-- Calls that lead from one journal to another. -/
inductive Makes (engine : Engine σ) (j : Journal σ) : List Call → Journal σ → Prop where
  | nothing : Makes engine j [] j
  | call {calls : List Call} {j' : Journal σ} (request : Request) (failure : Option EngineError)
      (s : σ) : Makes engine j calls j' →
      Makes engine j (calls ++ [⟨request, failure, engine.inTransaction s⟩])
        (j'.note engine request failure s)

namespace Makes

variable {engine : Engine σ} {j j' j'' : Journal σ} {calls more : List Call}

theorem one (request : Request) (failure : Option EngineError) (s : σ) :
    Makes engine j [⟨request, failure, engine.inTransaction s⟩] (j.note engine request failure s) :=
  .call request failure s .nothing

theorem append (h : Makes engine j calls j') (h' : Makes engine j' more j'') :
    Makes engine j (calls ++ more) j'' := by
  induction h' with
  | nothing => simpa using h
  | call request failure s _ ih =>
      rw [← List.append_assoc]
      exact ih.call request failure s

theorem calls_eq (h : Makes engine j calls j') : j'.calls = j.calls ++ calls := by
  induction h with
  | nothing => simp
  | call request failure s _ ih => simp [Journal.note, ih]

/-- The last call says whether a transaction is open. -/
theorem inside_eq (h : Makes engine j calls j') (hne : calls ≠ []) :
    calls.getLast?.any Call.inside = engine.inTransaction j'.state := by
  cases h with
  | nothing => exact absurd rfl hne
  | call request failure s _ => simp [Journal.note]

end Makes

namespace Installer

/-- How the installer asks for its own transaction. -/
def own (command : Command) : Request :=
  .execute command none

/-- How a query is asked for. -/
def asked (query : Query) : Request :=
  .execute query.command (some query.params)

/-- The commands of a transaction with queries, but for a rollback. -/
def commands (queries : List Query) : List Command :=
  begin :: commit :: queries.map Query.command

/-- The calls for queries that run. -/
def RunCalls (queries : List Query) (calls : List Call) : Prop :=
  List.Forall₂ (fun query call => call.request = asked query ∧ call.failure = none) queries calls

/-- Attempts to commit. Each but the last meets a lock, and a pause of the length that is set
follows it. -/
inductive CommitCalls (settings : Settings) : List Call → Option EngineError → Prop where
  | last {failure : Option EngineError} {inside : Bool} :
      CommitCalls settings [⟨own commit, failure, inside⟩] failure
  | again {e : EngineError} {calls : List Call} {failure : Option EngineError} {delay : Double}
      {inside inside' : Bool} : e.isRetriable = true → settings.retryDelay = .ok delay →
      CommitCalls settings calls failure →
      CommitCalls settings (⟨own commit, some e, inside⟩ :: ⟨.pause delay, none, inside'⟩ :: calls)
        failure

/-- The calls of a transaction, and the failure that ended it with the query that is to blame. -/
inductive Course (settings : Settings) (queries : List Query) :
    List Call → Option (EngineError × Option Command) → Prop where
  | unopened {e : EngineError} {inside : Bool} :
      Course settings queries [⟨own begin, some e, inside⟩] (some (e, none))
  | stopped {before after : List Query} {query : Query} {ran : List Call} {e : EngineError}
      {opened inside : Bool} : queries = before ++ query :: after → RunCalls before ran →
      Course settings queries (⟨own begin, none, opened⟩ :: ran ++ [⟨asked query, some e, inside⟩])
        (some (e, some query.command))
  | ended {ran commits : List Call} {failure : Option EngineError} {opened : Bool} :
      RunCalls queries ran → CommitCalls settings commits failure →
      Course settings queries (⟨own begin, none, opened⟩ :: ran ++ commits)
        (failure.map fun e => (e, none))

/-- What answers the calls: one rollback if a failure ended them while a transaction was open. -/
def Answers (failed : Bool) (calls answer : List Call) : Prop :=
  if failed && calls.getLast?.any Call.inside then
    ∃ inside, answer = [⟨own rollback, none, inside⟩]
  else answer = []

/-- The length of the pause behind a lock, or why there can be none: the setting is no length, or
the engine refuses it. -/
def waiting (engine : Engine σ) (settings : Settings) : Except Interruption Double :=
  match settings.retryDelay with
  | .error fault => .error (.setting fault)
  | .ok delay =>
    match engine.pauseFault? delay with
    | some e => .error (.engine e)
    | none => .ok delay

/-- A lock at the commit is not waited for, or a pause can be made. -/
def CanWait (engine : Engine σ) (settings : Settings) (limit : Int) : Prop :=
  limit ≤ 0 ∨ ∃ delay, waiting engine settings = .ok delay

/-- One of the installer's own attempts to commit meets a lock. -/
def Locked (calls : List Call) : Prop :=
  ∃ call ∈ calls, call.request = own commit ∧ call.failure.any EngineError.isRetriable = true

/-- How an interruption ends an installation where nothing answers it. -/
def Interruption.error : Interruption → InstallError
  | .engine cause => .engine cause
  | .setting fault => .setting fault

/-- The stage as it is without a journal. -/
def Stage.forget (stage : Stage (Journal σ) ε) : Stage σ ε :=
  ⟨stage.notices, stage.outcome, stage.state.state⟩

section Course

variable {settings : Settings} {queries : List Query} {calls : List Call}
  {failure : Option (EngineError × Option Command)}

theorem Course.ne_nil (h : Course settings queries calls failure) : calls ≠ [] := by
  cases h with
  | unopened => simp
  | stopped => simp
  | ended => simp

theorem ne_own_of_requests {requests : List Request} {command : Command}
    (h : calls.map Call.request = requests) (hnot : own command ∉ requests) :
    ∀ call ∈ calls, call.request ≠ own command := by
  intro call hcall hown
  exact hnot (h ▸ hown ▸ List.mem_map_of_mem hcall)

/-- Nothing answers the calls but a rollback. -/
theorem Answers.ne_commit {failed : Bool} {answer : List Call} (h : Answers failed calls answer) :
    ∀ call ∈ answer, call.request ≠ own commit := by
  unfold Answers at h
  split at h
  · obtain ⟨inside, rfl⟩ := h
    simp [own, rollback, commit]
  · simp [h]

theorem begin_ne_commit : own begin ≠ own commit := by
  simp [own, begin, commit]

/-- Attempts to commit are without failure just if one of them is. -/
theorem CommitCalls.failure_eq_none_iff {failure : Option EngineError}
    (h : CommitCalls settings calls failure) :
    failure = none ↔ ∃ call ∈ calls, call.request = own commit ∧ call.failure = none := by
  induction h with
  | last => simp
  | again _ _ _ ih => simpa [own] using ih

/-- A query is never asked for in the way of the installer's own commands. -/
theorem RunCalls.ne_own {ran : List Call} (h : RunCalls queries ran) (command : Command) :
    ∀ call ∈ ran, call.request ≠ own command := by
  induction h with
  | nil => simp
  | cons hfirst _ ih =>
      refine List.forall_mem_cons.2 ⟨?_, ih⟩
      rw [hfirst.1]
      simp [asked, own]

/-- Of the calls of a transaction whose queries run only those behind the queries commit. -/
theorem RunCalls.exists_commit_iff {ran commits : List Call} (h : RunCalls queries ran)
    (opened : Bool) (p : Option EngineError → Prop) :
    (∃ call ∈ ⟨own begin, none, opened⟩ :: ran ++ commits,
        call.request = own commit ∧ p call.failure) ↔
      ∃ call ∈ commits, call.request = own commit ∧ p call.failure := by
  refine exists_congr fun call => and_congr_left fun hcommit => ?_
  simp only [List.cons_append, List.mem_cons, List.mem_append]
  constructor
  · rintro (rfl | hcall | hcall)
    · exact absurd hcommit.1 begin_ne_commit
    · exact absurd hcommit.1 (h.ne_own commit call hcall)
    · exact hcall
  · exact fun hcall => .inr (.inr hcall)

theorem RunCalls.locked_iff {ran commits : List Call} (h : RunCalls queries ran) (opened : Bool) :
    Locked (⟨own begin, none, opened⟩ :: ran ++ commits) ↔ Locked commits :=
  h.exists_commit_iff opened fun failure => failure.any EngineError.isRetriable = true

/-- Calls around others that commit nothing make no difference to the commits. -/
theorem exists_commit_around {opening answer closing : List Call}
    (houter : ∀ call ∈ opening ++ answer ++ closing, call.request ≠ own commit)
    (p : Option EngineError → Prop) :
    (∃ call ∈ opening ++ calls ++ answer ++ closing, call.request = own commit ∧ p call.failure) ↔
      ∃ call ∈ calls, call.request = own commit ∧ p call.failure := by
  refine exists_congr fun call => and_congr_left fun hcommit => ?_
  have hnot : call ∉ opening ++ answer ++ closing := fun hcall => houter call hcall hcommit.1
  simp only [List.mem_append] at hnot ⊢
  tauto

/-- A transaction whose opening or whose query fails attempts no commit. -/
theorem not_exists_commit_of_asked {before : List Query} {query : Query} {ran : List Call}
    {e : EngineError} {opened inside : Bool} (hran : RunCalls before ran)
    (p : Option EngineError → Prop) :
    ¬ ∃ call ∈ ⟨own begin, none, opened⟩ :: ran ++ [⟨asked query, some e, inside⟩],
      call.request = own commit ∧ p call.failure := by
  rw [hran.exists_commit_iff opened p]
  simp [asked, own]

theorem not_locked_of_asked {before : List Query} {query : Query} {ran : List Call}
    {e : EngineError} {opened inside : Bool} (hran : RunCalls before ran) :
    ¬ Locked (⟨own begin, none, opened⟩ :: ran ++ [⟨asked query, some e, inside⟩]) :=
  not_exists_commit_of_asked hran fun failure => failure.any EngineError.isRetriable = true

/-- A transaction is without failure just if one of its own attempts to commit is. -/
theorem Course.failure_eq_none_iff (h : Course settings queries calls failure) :
    failure = none ↔ ∃ call ∈ calls, call.request = own commit ∧ call.failure = none := by
  cases h with
  | unopened => simp
  | stopped _ hran =>
      exact iff_of_false (by simp) (not_exists_commit_of_asked hran (· = none))
  | ended hran hcommits =>
      rw [Option.map_eq_none_iff, hcommits.failure_eq_none_iff]
      exact (hran.exists_commit_iff _ (· = none)).symm

end Course

section Stages

variable {engine : Engine σ} {settings : Settings} {limit : Int} {j : Journal σ}

theorem waiting_ok_iff {delay : Double} :
    waiting engine settings = .ok delay ↔
      settings.retryDelay = .ok delay ∧ engine.pauseFault? delay = none := by
  unfold waiting
  cases settings.retryDelay with
  | error fault => simp
  | ok length =>
      simp only [Except.ok.injEq]
      split
      · next e hfault =>
          simp only [reduceCtorEq, false_iff]
          rintro ⟨rfl, hnone⟩
          cases hfault.symm.trans hnone
      · next hnone =>
          simp only [Except.ok.injEq]
          exact ⟨fun h => ⟨h, h ▸ hnone⟩, fun h => h.1⟩

/-- There is no waiting just if a lock is to be waited for and something forbids the pause. -/
theorem not_canWait_iff : ¬ CanWait engine settings limit ↔
    0 < limit ∧ ∃ why, waiting engine settings = .error why := by
  rw [CanWait, not_or, Int.not_le]
  refine and_congr_right fun _ => ?_
  cases waiting engine settings with
  | ok delay => simp
  | error why => simp

theorem isDatabase_of_waiting {cause : EngineError} (hpauses : engine.PausesFailOutside)
    (h : waiting engine settings = .error (.engine cause)) : cause.isDatabase = false := by
  unfold waiting at h
  split at h
  · cases h
  · split at h
    · next e hfault =>
        cases h
        exact hpauses hfault
    · cases h

theorem journaled_execute_cases (engine : Engine σ) (command : Command)
    (params : Option (Fields Text)) (j : Journal σ) :
    (∃ s, engine.execute command params j.state = (.ok (), s) ∧
      engine.journaled.execute command params j =
        (.ok (), j.note engine (.execute command params) none s)) ∨
    ∃ e s, engine.execute command params j.state = (.error e, s) ∧
      engine.journaled.execute command params j =
        (.error e, j.note engine (.execute command params) (some e) s) := by
  obtain ⟨outcome, s, hexecute⟩ : ∃ outcome s,
      engine.execute command params j.state = (outcome, s) := ⟨_, _, rfl⟩
  cases outcome with
  | ok u => exact .inl ⟨s, hexecute, by simp [Engine.journaled, hexecute]⟩
  | error e => exact .inr ⟨e, s, hexecute, by simp [Engine.journaled, hexecute]⟩

/-- How the attempts to commit end. -/
def ending : Option EngineError → Except Interruption Unit
  | none => .ok ()
  | some e => .error (.engine e)

/-- What attempts to commit note and how they end, and that the journal makes no difference. -/
structure NotesCommits (engine : Engine σ) (settings : Settings) (limit : Int) (j : Journal σ)
    (failure : Option EngineError) (stage : Stage (Journal σ) Interruption)
    (plain : Stage σ Interruption) : Prop where
  calls : ∃ commits, CommitCalls settings commits failure ∧
    (Locked commits → CanWait engine settings limit) ∧ Makes engine j commits stage.state
  outcome : stage.outcome = ending failure
  isDatabase : ∀ e, failure = some e → e.isDatabase = true
  forget : stage.forget = plain

/-- What is noted where the first attempt to commit meets a lock that cannot be waited for. -/
structure NotesLock (engine : Engine σ) (settings : Settings) (j : Journal σ)
    (stage : Stage (Journal σ) Interruption) (plain : Stage σ Interruption) : Prop where
  calls : ∃ e inside, e.isRetriable = true ∧
    Makes engine j [⟨own commit, some e, inside⟩] stage.state
  outcome : ∃ why, waiting engine settings = .error why ∧ stage.outcome = .error why
  forget : stage.forget = plain

theorem NotesCommits.once {failure : Option EngineError} {s : σ}
    (hfailure : ∀ e, failure = some e → e.isDatabase = true)
    (hwait : failure.any EngineError.isRetriable = true → CanWait engine settings limit) :
    NotesCommits engine settings limit j failure
      ⟨[], ending failure, j.note engine (own commit) failure s⟩ ⟨[], ending failure, s⟩ := by
  refine ⟨⟨_, .last, ?_, .one _ _ _⟩, rfl, hfailure, rfl⟩
  rintro ⟨call, hcall, -, hlock⟩
  obtain rfl := List.mem_singleton.1 hcall
  exact hwait hlock

/-- Where each lock is the last that is waited for or a pause can be made, the attempts go on. -/
theorem commitFrom_notes (hdatabase : engine.FailsByDatabase [commit])
    (hwait : CanWait engine settings limit) (attempt left : Nat)
    (hleft : left ≠ 0 → 0 < limit) (j : Journal σ) :
    ∃ failure, NotesCommits engine settings limit j failure
      (commitFrom engine.journaled ⟨limit, settings.retryDelay⟩ attempt left j)
      (commitFrom engine ⟨limit, settings.retryDelay⟩ attempt left j.state) := by
  induction left generalizing attempt j with
  | zero =>
      unfold commitFrom
      rcases journaled_execute_cases engine commit none j with ⟨s, hs, hj⟩ | ⟨e, s, hs, hj⟩
      · rw [hs, hj]
        exact ⟨none, .once (by simp) (by simp)⟩
      · rw [hs, hj]
        have he : ∀ e', some e = some e' → e'.isDatabase = true :=
          fun _ h => Option.some.inj h ▸ hdatabase List.mem_cons_self hs
        dsimp only
        split
        · exact ⟨some e, .once he fun _ => hwait⟩
        · exact ⟨some e, .once he fun _ => hwait⟩
  | succ left ih =>
      unfold commitFrom
      rcases journaled_execute_cases engine commit none j with ⟨s, hs, hj⟩ | ⟨e, s, hs, hj⟩
      · rw [hs, hj]
        exact ⟨none, .once (by simp) (by simp)⟩
      · rw [hs, hj]
        dsimp only
        split
        · exact ⟨some e, .once (fun _ h => Option.some.inj h ▸ hdatabase List.mem_cons_self hs)
            fun _ => hwait⟩
        · next hretriable =>
            have hpositive := hleft (Nat.succ_ne_zero left)
            obtain ⟨delay, hdelay⟩ := hwait.resolve_left (Int.not_le.2 hpositive)
            obtain ⟨hdelay, hpause⟩ := waiting_ok_iff.1 hdelay
            have hpause' : engine.journaled.pauseFault? delay = none := hpause
            rw [hdelay]
            dsimp only
            rw [hpause, hpause']
            dsimp only
            -- the attempts that are left start behind the pause
            let paused := engine.journaled.sleep delay (j.note engine (own commit) (some e) s)
            have hfirst : Makes engine j _ paused :=
              (Makes.one (own commit) (some e) s).call (.pause delay) none (engine.sleep delay s)
            obtain ⟨failure, ⟨commits, hcommits, -, hmakes⟩, houtcome, hfailure, hforget⟩ :=
              ih (attempt + 1) (fun _ => hpositive) paused
            rw [hdelay] at hmakes houtcome hforget
            exact ⟨failure, ⟨_, .again (by simpa using hretriable) hdelay hcommits, fun _ => hwait,
              hfirst.append hmakes⟩, houtcome, hfailure,
              congrArg (fun stage : Stage σ Interruption =>
                { stage with notices := .commitRetried (attempt + 1) limit :: stage.notices })
                hforget⟩

/-- A lock that is to be waited for ends the attempts where no pause can be made. -/
theorem commitFrom_of_unwaited {s s' : σ} {e : EngineError} {why : Interruption}
    (hwhy : waiting engine settings = .error why)
    (hexecute : engine.execute commit none s = (.error e, s')) (hretriable : e.isRetriable = true)
    (attempt left : Nat) :
    commitFrom engine ⟨limit, settings.retryDelay⟩ attempt (left + 1) s =
      ⟨[.commitRetried (attempt + 1) limit], .error why, s'⟩ := by
  unfold waiting at hwhy
  rw [commitFrom, hexecute]
  simp only [hretriable, Bool.not_true, Bool.false_eq_true, if_false]
  cases hdelay : settings.retryDelay with
  | error fault =>
      rw [hdelay] at hwhy
      cases hwhy
      rfl
  | ok delay =>
      simp only [hdelay] at hwhy
      cases hfault : engine.pauseFault? delay with
      | none => simp [hfault] at hwhy
      | some e' =>
          simp only [hfault] at hwhy
          cases hwhy
          simp only [hfault]

/-- Where no pause can be made, a first attempt that meets a lock is the end. -/
theorem commitFrom_notes_of_unwaited {why : Interruption}
    (hdatabase : engine.FailsByDatabase [commit]) (hwhy : waiting engine settings = .error why)
    (left : Nat) (j : Journal σ) :
    (∃ failure, NotesCommits engine settings limit j failure
      (commitFrom engine.journaled ⟨limit, settings.retryDelay⟩ 0 (left + 1) j)
      (commitFrom engine ⟨limit, settings.retryDelay⟩ 0 (left + 1) j.state)) ∨
    NotesLock engine settings j
      (commitFrom engine.journaled ⟨limit, settings.retryDelay⟩ 0 (left + 1) j)
      (commitFrom engine ⟨limit, settings.retryDelay⟩ 0 (left + 1) j.state) := by
  rcases journaled_execute_cases engine commit none j with ⟨s, hs, hj⟩ | ⟨e, s, hs, hj⟩
  · rw [commitFrom, commitFrom, hs, hj]
    exact .inl ⟨none, .once (by simp) (by simp)⟩
  · cases hretriable : e.isRetriable with
    | false =>
        rw [commitFrom, commitFrom, hs, hj]
        simp only [hretriable, Bool.not_false, if_true]
        exact .inl ⟨some e, .once (fun _ h => Option.some.inj h ▸ hdatabase List.mem_cons_self hs)
          fun hlock => by simp [hretriable] at hlock⟩
    | true =>
        have hwhy' : waiting engine.journaled settings = .error why := hwhy
        rw [commitFrom_of_unwaited hwhy hs hretriable, commitFrom_of_unwaited hwhy' hj hretriable]
        exact .inr ⟨⟨e, _, hretriable, .one _ _ _⟩, ⟨why, hwhy, rfl⟩, rfl⟩

theorem commitAll_notes (hdatabase : engine.FailsByDatabase [commit])
    (hlimit : settings.maxRetries = .ok limit) (j : Journal σ) :
    (∃ failure, NotesCommits engine settings limit j failure
      (commitAll engine.journaled settings j) (commitAll engine settings j.state)) ∨
    0 < limit ∧ NotesLock engine settings j
      (commitAll engine.journaled settings j) (commitAll engine settings j.state) := by
  unfold commitAll
  rw [hlimit]
  by_cases hwait : CanWait engine settings limit
  · exact .inl (commitFrom_notes hdatabase hwait 0 limit.toNat (by omega) j)
  · obtain ⟨hpositive, why, hwhy⟩ := not_canWait_iff.1 hwait
    obtain ⟨left, hleft⟩ : ∃ left, limit.toNat = left + 1 :=
      Nat.exists_eq_succ_of_ne_zero (by omega)
    dsimp only
    rw [hleft]
    exact (commitFrom_notes_of_unwaited hdatabase hwhy left j).imp_right
      fun hlock => ⟨hpositive, hlock⟩

/-- Queries run up to the first that fails. -/
theorem runQueries_notes (queries : List Query)
    (hdatabase : engine.FailsByDatabase (queries.map Query.command)) (j : Journal σ) :
    (∃ ran j', RunCalls queries ran ∧ Makes engine j ran j' ∧
      runQueries engine.journaled queries j = (.ok (), j') ∧
      runQueries engine queries j.state = (.ok (), j'.state)) ∨
    ∃ before query after ran e inside j', queries = before ++ query :: after ∧
      RunCalls before ran ∧ e.isDatabase = true ∧
      Makes engine j (ran ++ [⟨asked query, some e, inside⟩]) j' ∧
      runQueries engine.journaled queries j = (.error (e, query.command), j') ∧
      runQueries engine queries j.state = (.error (e, query.command), j'.state) := by
  induction queries generalizing j with
  | nil => exact .inl ⟨[], j, .nil, .nothing, rfl, rfl⟩
  | cons query queries ih =>
      simp only [runQueries]
      rcases journaled_execute_cases engine query.command (some query.params) j with
        ⟨s, hs, hj⟩ | ⟨e, s, hs, hj⟩
      · rw [hs, hj]
        have hfirst : Makes engine j _ (j.note engine (asked query) none s) := .one _ _ _
        rcases ih (fun hcommand => hdatabase (List.mem_cons_of_mem _ hcommand))
          (j.note engine (asked query) none s) with
          ⟨ran, j', hran, hmakes, hrun⟩ |
            ⟨before, failed, after, ran, e, inside, j', rfl, hran, he, hmakes, hrun⟩
        · exact .inl ⟨_, j', .cons ⟨rfl, rfl⟩ hran, hfirst.append hmakes, hrun⟩
        · exact .inr ⟨query :: before, failed, after, _, e, inside, j', rfl,
            .cons ⟨rfl, rfl⟩ hran, he, hfirst.append hmakes, hrun⟩
      · rw [hs, hj]
        exact .inr ⟨[], query, queries, [], e, _, _, rfl, .nil, hdatabase List.mem_cons_self hs,
          .one _ _ _, rfl, rfl⟩

/-- How a transaction ends. -/
def settled : Option (EngineError × Option Command) → Except InstallError Unit
  | none => .ok ()
  | some (e, query) => .error (.execution e query)

theorem settled_ok_iff {failure : Option (EngineError × Option Command)} {count : Nat} :
    (settled failure).map (fun _ => count) = .ok count ↔ failure = none := by
  cases failure with
  | none => simp [settled, Except.map]
  | some failed => simp [settled, Except.map]

theorem settled_error {failure : Option (EngineError × Option Command)} {count : Nat}
    {error : InstallError} (h : (settled failure).map (fun _ => count) = .error error) :
    ∃ e query, failure = some (e, query) ∧ error = .execution e query := by
  cases failure with
  | none => simp [settled, Except.map] at h
  | some failed => exact ⟨failed.1, failed.2, rfl, by simpa [settled, Except.map] using h.symm⟩

/-- What a transaction notes and how it ends, and that the journal makes no difference. -/
structure NotesCourse (engine : Engine σ) (settings : Settings) (limit : Int)
    (queries : List Query) (j : Journal σ) (failure : Option (EngineError × Option Command))
    (stage : Stage (Journal σ) InstallError) (plain : Stage σ InstallError) : Prop where
  calls : ∃ run answer, Course settings queries run failure ∧
    (Locked run → CanWait engine settings limit) ∧ Answers failure.isSome run answer ∧
    Makes engine j (run ++ answer) stage.state
  outcome : stage.outcome = settled failure
  forget : stage.forget = plain

/-- What a transaction notes that a lock at its commit leaves unanswered. -/
structure NotesStrand (engine : Engine σ) (settings : Settings) (queries : List Query)
    (j : Journal σ) (stage : Stage (Journal σ) InstallError) (plain : Stage σ InstallError) :
    Prop where
  calls : ∃ ran e opened inside, RunCalls queries ran ∧ e.isRetriable = true ∧
    Makes engine j (⟨own begin, none, opened⟩ :: ran ++ [⟨own commit, some e, inside⟩]) stage.state
  outcome : ∃ why, waiting engine settings = .error why ∧ stage.outcome = .error why.error
  forget : stage.forget = plain

/-- A failure is answered by a rollback just where the calls left a transaction open. -/
theorem recover_notes {queries : List Query} {run : List Call} {j' : Journal σ} {e : EngineError}
    {query : Option Command} (hrollback : engine.RollsBack) (he : e.isDatabase = true)
    (hcourse : Course settings queries run (some (e, query)))
    (hlocked : Locked run → CanWait engine settings limit) (hrun : Makes engine j run j') :
    NotesCourse engine settings limit queries j (some (e, query))
      (recover engine.journaled e query j') (recover engine e query j'.state) := by
  have hinside := hrun.inside_eq hcourse.ne_nil
  have hjournaled : engine.journaled.inTransaction j' = engine.inTransaction j'.state := rfl
  unfold recover
  rw [hjournaled, he]
  cases hopen : engine.inTransaction j'.state with
  | false =>
      have hanswers : Answers true run [] := by simp [Answers, hinside, hopen]
      exact ⟨⟨run, [], hcourse, hlocked, hanswers, by simpa using hrun⟩, rfl, rfl⟩
  | true =>
      obtain ⟨s, hs⟩ := hrollback hopen
      have hj : engine.journaled.execute rollback none j' =
          (.ok (), j'.note engine (own rollback) none s) := by
        simp [Engine.journaled, hs, own]
      simp only [Bool.not_true, Bool.false_eq_true, if_false, if_true, hs, hj]
      refine ⟨⟨run, _, hcourse, hlocked, ?_, hrun.append (.one (own rollback) none s)⟩, rfl, rfl⟩
      simp [Answers, hinside, hopen]

/-- Once all queries have run, the attempts to commit are what is left. -/
theorem finish_notes {queries : List Query} {ran : List Call} {opened : Bool} {j' : Journal σ}
    (hdatabase : engine.FailsByDatabase [commit]) (hrollback : engine.RollsBack)
    (hpauses : engine.PausesFailOutside) (hlimit : settings.maxRetries = .ok limit)
    (hran : RunCalls queries ran) (hmakes : Makes engine j (⟨own begin, none, opened⟩ :: ran) j') :
    (∃ failure, NotesCourse engine settings limit queries j failure
      (finish engine.journaled settings j') (finish engine settings j'.state)) ∨
    0 < limit ∧ NotesStrand engine settings queries j
      (finish engine.journaled settings j') (finish engine settings j'.state) := by
  unfold finish
  rcases commitAll_notes hdatabase hlimit j' with
    ⟨failure, ⟨commits, hcommits, hlocked, hattempts⟩, houtcome, hfailure, hforget⟩ |
      ⟨hpositive, ⟨e, inside, hretriable, hattempt⟩, ⟨why, hwhy, houtcome⟩, hforget⟩
  · left
    have hcourse : Course settings queries (⟨own begin, none, opened⟩ :: ran ++ commits)
        (failure.map fun e => (e, none)) := .ended hran hcommits
    have hrun := hmakes.append hattempts
    have hlocked : Locked (⟨own begin, none, opened⟩ :: ran ++ commits) →
        CanWait engine settings limit := fun h => hlocked ((hran.locked_iff opened).1 h)
    rw [← hforget]
    generalize commitAll engine.journaled settings j' = committed at houtcome hrun
    obtain ⟨notices, outcome, state⟩ := committed
    obtain rfl : outcome = ending failure := houtcome
    cases failure with
    | none =>
        have hend : Makes engine j (⟨own begin, none, opened⟩ :: ran ++ commits ++ []) state := by
          rwa [List.append_nil]
        exact ⟨none, ⟨_, [], hcourse, hlocked, by simp [Answers], hend⟩, rfl, rfl⟩
    | some e =>
        obtain ⟨hcalls, hout, hplain⟩ :=
          recover_notes hrollback (hfailure e rfl) hcourse hlocked hrun
        exact ⟨some (e, none), hcalls, hout, congrArg (fun stage : Stage σ InstallError =>
          { stage with notices := notices ++ stage.notices }) hplain⟩
  · refine .inr ⟨hpositive, ?_⟩
    have hrun := hmakes.append hattempt
    rw [← hforget]
    generalize commitAll engine.journaled settings j' = committed at houtcome hrun
    obtain ⟨notices, outcome, state⟩ := committed
    obtain rfl : outcome = .error why := houtcome
    have hcalls : ∃ ran e opened inside, RunCalls queries ran ∧ e.isRetriable = true ∧
        Makes engine j (⟨own begin, none, opened⟩ :: ran ++ [⟨own commit, some e, inside⟩])
          state := ⟨ran, e, opened, inside, hran, hretriable, hrun⟩
    cases why with
    | setting fault => exact ⟨hcalls, ⟨_, hwhy, rfl⟩, rfl⟩
    | engine cause =>
        -- nothing answers a failure that is not the database's own
        have hcause := isDatabase_of_waiting hpauses hwhy
        simp only [Stage.forget, recover, hcause, Bool.not_false, if_true, List.append_nil]
        exact ⟨hcalls, ⟨_, hwhy, rfl⟩, rfl⟩

theorem transact_notes {queries : List Query}
    (hdatabase : engine.FailsByDatabase (commands queries)) (hrollback : engine.RollsBack)
    (hpauses : engine.PausesFailOutside) (hlimit : settings.maxRetries = .ok limit)
    (j : Journal σ) :
    (∃ failure, NotesCourse engine settings limit queries j failure
      (transact engine.journaled settings queries j)
      (transact engine settings queries j.state)) ∨
    0 < limit ∧ NotesStrand engine settings queries j
      (transact engine.journaled settings queries j)
      (transact engine settings queries j.state) := by
  have hcommit : engine.FailsByDatabase [commit] := fun hcommand =>
    hdatabase (by simp [commands, List.mem_singleton.1 hcommand])
  have hqueries : engine.FailsByDatabase (queries.map Query.command) := fun hcommand =>
    hdatabase (List.mem_cons_of_mem _ (List.mem_cons_of_mem _ hcommand))
  unfold transact
  rcases journaled_execute_cases engine begin none j with ⟨s, hs, hj⟩ | ⟨e, s, hs, hj⟩
  · rw [hs, hj]
    dsimp only
    have hbegin : Makes engine j _ (j.note engine (own begin) none s) := .one _ _ _
    rcases runQueries_notes queries hqueries (j.note engine (own begin) none s) with
      ⟨ran, j', hran, hmakes, hjournaled, hplain⟩ |
        ⟨before, query, after, ran, e, inside, j', hcut, hran, he, hmakes, hjournaled, hplain⟩
    · have hplain : runQueries engine queries s = (.ok (), j'.state) := hplain
      have hjournaled : runQueries engine.journaled queries
          (j.note engine (.execute begin none) none s) = (.ok (), j') := hjournaled
      rw [hjournaled, hplain]
      exact finish_notes hcommit hrollback hpauses hlimit hran (hbegin.append hmakes)
    · have hplain : runQueries engine queries s = (.error (e, query.command), j'.state) := hplain
      have hjournaled : runQueries engine.journaled queries
          (j.note engine (.execute begin none) none s) = (.error (e, query.command), j') :=
        hjournaled
      rw [hjournaled, hplain]
      exact .inl ⟨_, recover_notes hrollback he (.stopped hcut hran)
        (fun hlocked => absurd hlocked (not_locked_of_asked hran))
        (by simpa using hbegin.append hmakes)⟩
  · rw [hs, hj]
    exact .inl ⟨_, recover_notes hrollback (hdatabase List.mem_cons_self hs) .unopened
      (by simp [Locked, begin_ne_commit]) (.one (own begin) (some e) s)⟩

/-- The calls of a transaction stand between those for its connection, which is opened and closed if
it was not supplied. -/
theorem transactAt_frames (engine : Engine σ) (settings : Settings) (queries : List Query)
    (path : Option Text) (s : σ) :
    ∃ j closing, j.calls.map Call.request = path.toList.map Request.connect ∧
      closing.map Call.request = path.toList.map (fun _ => Request.close) ∧
      (transactAt engine.journaled settings path queries ⟨s, []⟩).state.calls =
        (transact engine.journaled settings queries j).state.calls ++ closing ∧
      (transactAt engine.journaled settings path queries ⟨s, []⟩).outcome =
        (transact engine.journaled settings queries j).outcome ∧
      ((transact engine.journaled settings queries j).forget =
          transact engine settings queries j.state →
        (transactAt engine.journaled settings path queries ⟨s, []⟩).forget =
          transactAt engine settings path queries s) := by
  cases path with
  | none => exact ⟨⟨s, []⟩, [], rfl, rfl, (List.append_nil _).symm, rfl, id⟩
  | some path =>
      refine ⟨engine.journaled.connect path ⟨s, []⟩, [⟨.close, none, _⟩], rfl, rfl, rfl, rfl,
        fun hforget => ?_⟩
      exact congrArg (fun stage : Stage σ InstallError =>
        { stage with state := engine.close stage.state }) hforget

end Stages

/-- The calls of an installation. -/
def callsOf (engine : Engine σ) (settings : Settings) (database : Text) (supplied : Bool)
    (batch : Text) (s : σ) : List Call :=
  (install engine.journaled settings database supplied batch ⟨s, []⟩).2.calls

/-- The path at which a connection is opened, if it is not supplied. -/
def opensAt (database : Text) (supplied : Bool) : Option Text :=
  if supplied then none else some database

/-- An installation ends as the transaction with its queries does. -/
theorem install_of_ok {settings : Settings} {database batch : Text} {supplied : Bool}
    {queries : List Query} (engine : Engine σ)
    (hbatch : (BatchReport.ofBatch settings batch).outcome = .ok queries) (s : σ) :
    (install engine settings database supplied batch s).1.outcome =
        (transactAt engine settings (opensAt database supplied) queries s).outcome.map
          (fun _ => queries.length) ∧
      (install engine settings database supplied batch s).2 =
        (transactAt engine settings (opensAt database supplied) queries s).state := by
  simp only [install, hbatch, opensAt]
  generalize transactAt engine settings (if supplied then none else some database) queries s = stage
  obtain ⟨notices, outcome, state⟩ := stage
  cases outcome with
  | error e => exact ⟨rfl, rfl⟩
  | ok u => exact ⟨rfl, rfl⟩

/-- An installation in order. The connection is opened, unless it is supplied; a transaction is
opened; the queries run in order, up to the first that fails; if none does, attempts to commit; a
rollback just where a failure left the transaction open; and the connection is closed, unless it is
supplied. The installation succeeds just if one of its own attempts to commit does, and otherwise
its error names the query that failed, if one did. -/
def Orderly (settings : Settings) (queries : List Query) (database : Text) (supplied : Bool)
    (calls : List Call) (outcome : Except InstallError Nat) : Prop :=
  ∃ opening run failure answer closing, calls = opening ++ run ++ answer ++ closing ∧
    opening.map Call.request = (if supplied then [] else [.connect database]) ∧
    Course settings queries run failure ∧ Answers failure.isSome run answer ∧
    closing.map Call.request = (if supplied then [] else [.close]) ∧
    (outcome = .ok queries.length ↔
      ∃ call ∈ calls, call.request = own commit ∧ call.failure = none) ∧
    ∀ error, outcome = .error error →
      ∃ e query, failure = some (e, query) ∧ error = .execution e query

/-- An installation that is given up at its first attempt to commit: the queries have run, the
attempt has met a lock, nothing answers it, and what ends it is why no pause can be made. -/
def GivenUp (engine : Engine σ) (settings : Settings) (queries : List Query) (database : Text)
    (supplied : Bool) (calls : List Call) (outcome : Except InstallError Nat) : Prop :=
  ∃ opening ran e opened inside closing why,
    calls = opening ++ (⟨own begin, none, opened⟩ :: ran ++ [⟨own commit, some e, inside⟩]) ++
      closing ∧
    opening.map Call.request = (if supplied then [] else [.connect database]) ∧
    RunCalls queries ran ∧ e.isRetriable = true ∧
    closing.map Call.request = (if supplied then [] else [.close]) ∧
    waiting engine settings = .error why ∧ outcome = .error why.error

/-- Whether an installation succeeds or ends with an error that a rollback answers. -/
def isAnswered : Except InstallError Nat → Bool
  | .ok _ | .error (.execution _ _) => true
  | .error _ => false

theorem Orderly.isAnswered {settings : Settings} {queries : List Query} {database : Text}
    {supplied : Bool} {calls : List Call} {outcome : Except InstallError Nat}
    (h : Orderly settings queries database supplied calls outcome) : isAnswered outcome = true := by
  obtain ⟨_, _, failure, _, _, -, -, -, -, -, -, herror⟩ := h
  cases outcome with
  | ok count => rfl
  | error error =>
      obtain ⟨e, query, -, rfl⟩ := herror error rfl
      rfl

theorem GivenUp.not_orderly {engine : Engine σ} {settings : Settings} {queries : List Query}
    {database : Text} {supplied : Bool} {calls : List Call} {outcome : Except InstallError Nat}
    (h : GivenUp engine settings queries database supplied calls outcome) :
    ¬ Orderly settings queries database supplied calls outcome := by
  obtain ⟨_, _, _, _, _, _, why, -, -, -, -, -, -, rfl⟩ := h
  intro horderly
  have hanswered := horderly.isAnswered
  cases why with
  | engine cause => cases hanswered
  | setting fault => cases hanswered

section Framed

variable {engine : Engine σ} {settings : Settings} {queries : List Query} {database : Text}
  {supplied : Bool} {opening closing : List Call} {outcome : Except InstallError Nat}

/-- The calls for the connection commit nothing. -/
theorem connection_ne_commit
    (hopening : opening.map Call.request = if supplied then [] else [.connect database])
    (hclosing : closing.map Call.request = if supplied then [] else [.close]) :
    ∀ call ∈ opening ++ closing, call.request ≠ own commit := by
  intro call hcall
  rcases List.mem_append.1 hcall with hcall | hcall
  · exact ne_own_of_requests hopening (by cases supplied <;> simp [own]) call hcall
  · exact ne_own_of_requests hclosing (by cases supplied <;> simp [own]) call hcall

/-- An installation is in order whose transaction takes a course that is answered, and it meets a
lock at the commit only where that transaction does. -/
theorem orderly_of_course {run answer : List Call}
    {failure : Option (EngineError × Option Command)}
    (hopening : opening.map Call.request = if supplied then [] else [.connect database])
    (hclosing : closing.map Call.request = if supplied then [] else [.close])
    (hcourse : Course settings queries run failure) (hanswer : Answers failure.isSome run answer)
    (houtcome : outcome = (settled failure).map fun _ => queries.length) :
    Orderly settings queries database supplied (opening ++ run ++ answer ++ closing) outcome ∧
      (Locked (opening ++ run ++ answer ++ closing) → Locked run) := by
  have houter : ∀ call ∈ opening ++ answer ++ closing, call.request ≠ own commit := by
    have hconnection := connection_ne_commit hopening hclosing
    intro call hcall
    simp only [List.mem_append] at hcall hconnection
    rcases hcall with (hcall | hcall) | hcall
    · exact hconnection call (.inl hcall)
    · exact hanswer.ne_commit call hcall
    · exact hconnection call (.inr hcall)
  refine ⟨⟨opening, run, failure, answer, closing, rfl, hopening, hcourse, hanswer, hclosing, ?_,
    fun error herror => settled_error (houtcome.symm.trans herror)⟩,
    (exists_commit_around houter fun failure => failure.any EngineError.isRetriable = true).1⟩
  rw [houtcome, settled_ok_iff, hcourse.failure_eq_none_iff]
  exact (exists_commit_around houter (· = none)).symm

/-- An installation is given up whose transaction is left at a lock, and it meets that lock. -/
theorem givenUp_of_strand {ran : List Call} {e : EngineError} {opened inside : Bool}
    {why : Interruption}
    (hopening : opening.map Call.request = if supplied then [] else [.connect database])
    (hclosing : closing.map Call.request = if supplied then [] else [.close])
    (hran : RunCalls queries ran) (hretriable : e.isRetriable = true)
    (hwhy : waiting engine settings = .error why) (houtcome : outcome = .error why.error) :
    GivenUp engine settings queries database supplied
        (opening ++ (⟨own begin, none, opened⟩ :: ran ++ [⟨own commit, some e, inside⟩]) ++
          closing) outcome ∧
      Locked (opening ++ (⟨own begin, none, opened⟩ :: ran ++ [⟨own commit, some e, inside⟩]) ++
        closing) :=
  ⟨⟨opening, ran, e, opened, inside, closing, why, rfl, hopening, hran, hretriable, hclosing, hwhy,
      houtcome⟩,
    ⟨⟨own commit, some e, inside⟩, by simp, rfl, hretriable⟩⟩

end Framed

/-- Where the batch is not restated nothing is called. Otherwise the installation is in order just
if none of its attempts to commit meets a lock that is to be waited for where no pause can be made,
and with such a lock it is given up inside its transaction. -/
theorem install_orderly_iff (engine : Engine σ) (settings : Settings) (database batch : Text)
    (supplied : Bool) (s : σ) {limit : Int}
    (hdatabase : ∀ queries, (BatchReport.ofBatch settings batch).outcome = .ok queries →
      engine.FailsByDatabase (commands queries))
    (hrollback : engine.RollsBack) (hpauses : engine.PausesFailOutside)
    (hlimit : settings.maxRetries = .ok limit) :
    (∀ e, (BatchReport.ofBatch settings batch).outcome = .error e →
      callsOf engine settings database supplied batch s = [] ∧
      (install engine settings database supplied batch s).1.outcome = .error (.statement e)) ∧
    ∀ queries, (BatchReport.ofBatch settings batch).outcome = .ok queries →
      (Orderly settings queries database supplied
          (callsOf engine settings database supplied batch s)
          (install engine settings database supplied batch s).1.outcome ↔
        (Locked (callsOf engine settings database supplied batch s) →
          CanWait engine settings limit)) ∧
      (Locked (callsOf engine settings database supplied batch s) →
        ¬ CanWait engine settings limit →
        GivenUp engine settings queries database supplied
          (callsOf engine settings database supplied batch s)
          (install engine settings database supplied batch s).1.outcome) := by
  constructor
  · intro e hbatch
    simp only [callsOf, install, hbatch, and_self]
  · intro queries hbatch
    obtain ⟨j, closing, hopening, hclosing, hcalls, houtcome, hforget⟩ :=
      transactAt_frames engine settings queries (opensAt database supplied) s
    have hopens : j.calls.map Call.request = if supplied then [] else [.connect database] := by
      cases supplied <;> exact hopening
    have hcloses : closing.map Call.request = if supplied then [] else [.close] := by
      cases supplied <;> exact hclosing
    have hmade : callsOf engine settings database supplied batch s =
        (transact engine.journaled settings queries j).state.calls ++ closing := by
      rw [callsOf, (install_of_ok engine.journaled hbatch _).2, hcalls]
    have hends : (transact engine.journaled settings queries j).forget =
          transact engine settings queries j.state →
        (install engine settings database supplied batch s).1.outcome =
          (transact engine.journaled settings queries j).outcome.map fun _ => queries.length := by
      intro h
      rw [(install_of_ok engine hbatch s).1, ← hforget h, ← houtcome]
      rfl
    rcases transact_notes (hdatabase queries hbatch) hrollback hpauses hlimit j with
      ⟨failure, ⟨run, answer, hcourse, hlocked, hanswer, hmakes⟩, hsettled, hplain⟩ |
        ⟨hpositive, ⟨ran, e, opened, inside, hran, hretriable, hmakes⟩, ⟨why, hwhy, hstops⟩, hplain⟩
    · have hends := hends hplain
      rw [hsettled] at hends
      rw [hmade, hmakes.calls_eq, ← List.append_assoc]
      obtain ⟨horderly, hlocks⟩ := orderly_of_course hopens hcloses hcourse hanswer hends
      exact ⟨iff_of_true horderly fun h => hlocked (hlocks h),
        fun h hnot => absurd (hlocked (hlocks h)) hnot⟩
    · have hends := hends hplain
      rw [hstops] at hends
      rw [hmade, hmakes.calls_eq]
      obtain ⟨hgiven, hmeets⟩ := givenUp_of_strand hopens hcloses hran hretriable hwhy hends
      have hnever := not_canWait_iff.2 ⟨hpositive, why, hwhy⟩
      exact ⟨iff_of_false hgiven.not_orderly fun h => hnever (h hmeets), fun _ _ => hgiven⟩

/-- Pauses of some 292 years and more cannot be made, nor those below zero. -/
def shortPauses (length : Double) : Option EngineError :=
  if !length.truncate?.any (· < 9223372036) then
    some ⟨.foreign "OverflowError", "timestamp too large to convert", none⟩
  else if !length.isDuration then
    some ⟨.foreign "ValueError", "sleep length must be non-negative", none⟩
  else none

/-- An engine on which each attempt to commit meets a lock. -/
def lockedEngine : Engine Bool where
  connect _ _ := false
  execute command _ s :=
    match Dialect.words.role command with
    | .begin => (.ok (), true)
    | .commit => (.error ⟨.operational, "database is locked", some 5⟩, s)
    | .rollback => (.ok (), false)
    | .work => (.ok (), s)
  inTransaction s := s
  sleep _ s := s
  pauseFault? := shortPauses
  close _ := false

theorem lockedEngine_failsByDatabase (commands : List Command) :
    lockedEngine.FailsByDatabase commands := by
  intro command params s e s' _ h
  simp only [lockedEngine] at h
  cases hrole : Dialect.words.role command <;> simp only [hrole, Prod.mk.injEq, reduceCtorEq,
    false_and, Except.error.injEq] at h
  exact h.1 ▸ rfl

theorem lockedEngine_pausesFailOutside : lockedEngine.PausesFailOutside := by
  intro length e h
  simp only [lockedEngine, shortPauses] at h
  split at h
  · exact (Option.some.inj h) ▸ rfl
  · split at h
    · exact (Option.some.inj h) ▸ rfl
    · cases h

/-- The built-in delay can be waited for: a table is created on a connection that is opened for it,
and although no attempt to commit succeeds the installation is in order. -/
theorem install_orderly_of_builtIn :
    ∃ settings queries limit, Settings.load .builtIn = .ok settings ∧
      (BatchReport.ofBatch settings "CREATE TABLE a (x int)").outcome = .ok queries ∧
      settings.maxRetries = .ok limit ∧ 0 < limit ∧ lockedEngine.RollsBack ∧
      Orderly settings queries "db" false
        (callsOf lockedEngine settings "db" false "CREATE TABLE a (x int)" true)
        (install lockedEngine settings "db" false "CREATE TABLE a (x int)" true).1.outcome := by
  obtain ⟨settings, hload, h⟩ := exists_of_passes (show passes (fun settings =>
      passes (fun _ => true) (BatchReport.ofBatch settings "CREATE TABLE a (x int)").outcome &&
        passes (0 < ·) settings.maxRetries &&
        passes (fun delay => (shortPauses delay).isNone) settings.retryDelay)
      (Settings.load .builtIn) = true by decide +kernel)
  obtain ⟨h, hdelay⟩ := Bool.and_eq_true_iff.1 h
  obtain ⟨hbatch, hlimit⟩ := Bool.and_eq_true_iff.1 h
  obtain ⟨queries, hbatch, -⟩ := exists_of_passes hbatch
  obtain ⟨limit, hlimit, hpositive⟩ := exists_of_passes hlimit
  obtain ⟨delay, hdelay, hpause⟩ := exists_of_passes hdelay
  have hrollback : lockedEngine.RollsBack := fun _ => ⟨false, rfl⟩
  have hwait : CanWait lockedEngine settings limit :=
    .inr ⟨delay, waiting_ok_iff.2 ⟨hdelay, by simpa [lockedEngine] using hpause⟩⟩
  refine ⟨settings, queries, limit, hload, hbatch, hlimit, by simpa using hpositive, hrollback, ?_⟩
  exact ((install_orderly_iff lockedEngine settings "db" "CREATE TABLE a (x int)" false true
    (fun queries _ => lockedEngine_failsByDatabase _) hrollback lockedEngine_pausesFailOutside
    hlimit).2 queries hbatch).1.2 fun _ => hwait

/-- Settings with one retry and the given number of seconds before it. -/
def delayedSettings (seconds : Nat) : Json :=
  .obj [("execution", .obj [("max_retries", .int 1), ("retry_delay_seconds", .int seconds)])]

/-- With a retry behind so many seconds a table is not installed in order, although the engine fails
by the database's own errors only and can roll back: the transaction is open when its commit has
failed, and the connection is closed without a rollback. -/
def BreaksOrder (seconds : Nat) : Prop :=
  ∃ settings queries, Settings.load (.value (delayedSettings seconds)) = .ok settings ∧
    settings.maxRetries = .ok 1 ∧
    (BatchReport.ofBatch settings "CREATE TABLE a (x int)").outcome = .ok queries ∧
    lockedEngine.FailsByDatabase (commands queries) ∧ lockedEngine.RollsBack ∧
    (callsOf lockedEngine settings "db" false "CREATE TABLE a (x int)" false).map Call.inside =
      [false, true, true, true, false] ∧
    ¬ Orderly settings queries "db" false
      (callsOf lockedEngine settings "db" false "CREATE TABLE a (x int)" false)
      (install lockedEngine settings "db" false "CREATE TABLE a (x int)" false).1.outcome

/-- The order is broken where a run ends without an answer. -/
theorem breaksOrder_of_run {seconds : Nat} (hrun : passes (fun settings =>
      passes (· == 1) settings.maxRetries &&
      passes (fun _ => true) (BatchReport.ofBatch settings "CREATE TABLE a (x int)").outcome &&
      (callsOf lockedEngine settings "db" false "CREATE TABLE a (x int)" false).map Call.inside ==
        [false, true, true, true, false] &&
      !isAnswered
        (install lockedEngine settings "db" false "CREATE TABLE a (x int)" false).1.outcome)
      (Settings.load (.value (delayedSettings seconds))) = true) : BreaksOrder seconds := by
  obtain ⟨settings, hload, h⟩ := exists_of_passes hrun
  obtain ⟨h, hunanswered⟩ := Bool.and_eq_true_iff.1 h
  obtain ⟨h, hinside⟩ := Bool.and_eq_true_iff.1 h
  obtain ⟨hlimit, hbatch⟩ := Bool.and_eq_true_iff.1 h
  obtain ⟨limit, hlimit, hone⟩ := exists_of_passes hlimit
  obtain ⟨queries, hbatch, -⟩ := exists_of_passes hbatch
  refine ⟨settings, queries, hload, eq_of_beq hone ▸ hlimit, hbatch,
    lockedEngine_failsByDatabase _, fun _ => ⟨false, rfl⟩, eq_of_beq hinside, fun horderly => ?_⟩
  rw [horderly.isAnswered] at hunanswered
  cases hunanswered

/-- A delay too long for a pause, and one out of range, are met at a lock. -/
theorem install_not_orderly : BreaksOrder (Nat.pow 10 10) ∧ BreaksOrder (Nat.pow 10 310) := by
  constructor
  · exact breaksOrder_of_run (by decide +kernel)
  · exact breaksOrder_of_run (by decide +kernel)

end Installer

end Restate
