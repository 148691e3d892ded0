import Restate.Proofs.Install.Journal

/-!
# Attempts to commit

A commit that meets a lock is tried again behind a warning and a pause, as often as the settings
allow. The attempts that an engine would see, one behind the other, are a sequence of outcomes; how
many of them are made should depend on that sequence alone: they stop at the first that meets no
lock or at the last that is allowed, and how that one ended is how the commit ends (`Persists`).
Main statement: they do just if the first attempt meets no lock that is to be waited for where no
pause can be made (`commitAll_persists_iff`).
-/

namespace Restate

namespace Installer

variable {σ : Type}

/-- The state in which an attempt to commit is made, if a pause follows every attempt before it. -/
def attemptState (engine : Engine σ) (delay : Double) (s : σ) : Nat → σ
  | 0 => s
  | n + 1 => engine.sleep delay (engine.execute commit none (attemptState engine delay s n)).2

/-- The failure with which something ended, if it did. -/
def failure? : Except EngineError Unit → Option EngineError
  | .ok () => none
  | .error e => some e

/-- How an attempt to commit fails, if it does. -/
def attemptFailure (engine : Engine σ) (delay : Double) (s : σ) (n : Nat) : Option EngineError :=
  failure? (engine.execute commit none (attemptState engine delay s n)).1

/-- Whether an attempt to commit meets a lock. -/
def meetsLock (engine : Engine σ) (delay : Double) (s : σ) (n : Nat) : Bool :=
  (attemptFailure engine delay s n).any EngineError.isRetriable

/-- Attempts stop behind the given number of retries: at the first that meets no lock, or where no
more are left. -/
structure StopsBehind (engine : Engine σ) (delay : Double) (s : σ) (left retries : Nat) : Prop where
  le : retries ≤ left
  locked : ∀ i < retries, meetsLock engine delay s i = true
  last : meetsLock engine delay s retries = true → retries = left

/-- What attempts with the given number of retries ask of an engine, and how each call fails. -/
def attempted (delay : Double) (outcomes : Nat → Option EngineError) (retries : Nat) :
    List (Request × Option EngineError) :=
  (List.range retries).flatMap (fun i => [(own commit, outcomes i), (.pause delay, none)]) ++
    [(own commit, outcomes retries)]

/-- The warnings about retries, numbered behind the given number. -/
def retryNotices (limit : Int) (attempt retries : Nat) : List Notice :=
  (List.range retries).map fun i => .commitRetried (attempt + i + 1) limit

section Attempts

variable {engine : Engine σ} {delay : Double} {patience : Patience} {s : σ}

/-- The attempts behind the first one are those from the state behind its pause. -/
theorem attemptState_succ (engine : Engine σ) (delay : Double) (s : σ) (n : Nat) :
    attemptState engine delay (attemptState engine delay s 1) n =
      attemptState engine delay s (n + 1) := by
  induction n with
  | zero => rfl
  | succ n ih => rw [attemptState, ih, ← attemptState]

theorem attemptFailure_succ (engine : Engine σ) (delay : Double) (s : σ) (n : Nat) :
    attemptFailure engine delay (attemptState engine delay s 1) n =
      attemptFailure engine delay s (n + 1) := by
  rw [attemptFailure, attemptState_succ, attemptFailure]

theorem attemptFailure_of_execute (delay : Double) {outcome : Except EngineError Unit} {s' : σ}
    (h : engine.execute commit none s = (outcome, s')) :
    attemptFailure engine delay s 0 = failure? outcome := by
  rw [attemptFailure, attemptState, h]

theorem StopsBehind.here {left : Nat} (h : meetsLock engine delay s 0 = true → left = 0) :
    StopsBehind engine delay s left 0 :=
  ⟨Nat.zero_le left, by simp, fun hlock => (h hlock).symm⟩

theorem StopsBehind.retried {left retries : Nat} (hlock : meetsLock engine delay s 0 = true)
    (h : StopsBehind engine delay (attemptState engine delay s 1) left retries) :
    StopsBehind engine delay s (left + 1) (retries + 1) := by
  have hshift : ∀ i, meetsLock engine delay (attemptState engine delay s 1) i =
      meetsLock engine delay s (i + 1) := fun i => by
    rw [meetsLock, attemptFailure_succ, meetsLock]
  refine ⟨Nat.succ_le_succ h.le, ?_, fun hlast => ?_⟩
  · intro i hi
    cases i with
    | zero => exact hlock
    | succ i => exact hshift i ▸ h.locked i (Nat.lt_of_succ_lt_succ hi)
  · exact congrArg (· + 1) (h.last (hshift retries ▸ hlast))

/-- There is one number of retries behind which the attempts stop. -/
theorem StopsBehind.unique {left m n : Nat} (hm : StopsBehind engine delay s left m)
    (hn : StopsBehind engine delay s left n) : m = n := by
  have hle : ∀ {m n : Nat}, StopsBehind engine delay s left m →
      StopsBehind engine delay s left n → n ≤ m := by
    intro m n hm hn
    by_contra hlt
    have hleft := hm.last (hn.locked m (Nat.lt_of_not_le hlt))
    exact hlt (hleft ▸ hn.le)
  exact Nat.le_antisymm (hle hn hm) (hle hm hn)

theorem retryNotices_succ (limit : Int) (attempt retries : Nat) :
    retryNotices limit attempt (retries + 1) =
      .commitRetried (attempt + 1) limit :: retryNotices limit (attempt + 1) retries := by
  unfold retryNotices
  rw [List.range_succ_eq_map, List.map_cons, List.map_map]
  refine congrArg _ (List.map_congr_left fun i _ => ?_)
  simp only [Function.comp_apply]
  congr 1
  omega

/-- A run of the attempts in which a first lock can be waited for: it stops behind some number of
retries, gives that many warnings, and ends as its last attempt does, in the state behind that. -/
theorem commitFrom_eq (engine : Engine σ) (patience : Patience) (attempt left : Nat) (s : σ)
    (hwait : meetsLock engine delay s 0 = true → left ≠ 0 →
      patience.delay = .ok delay ∧ engine.pauseFault? delay = none) :
    ∃ retries, StopsBehind engine delay s left retries ∧
      commitFrom engine patience attempt left s =
        ⟨retryNotices patience.limit attempt retries,
          ending (attemptFailure engine delay s retries),
          (engine.execute commit none (attemptState engine delay s retries)).2⟩ := by
  -- each retry starts from the state behind the pause, with one attempt less allowed
  induction left generalizing attempt s with
  | zero =>
      refine ⟨0, .here fun _ => rfl, ?_⟩
      unfold commitFrom
      cases hexecute : engine.execute commit none s with
      | mk outcome s' =>
          rw [attemptFailure_of_execute delay hexecute, attemptState, hexecute]
          cases outcome with
          | ok => rfl
          | error e =>
              dsimp only
              split
              · rfl
              · rfl
  | succ left ih =>
      unfold commitFrom
      cases hexecute : engine.execute commit none s with
      | mk outcome s' =>
          have hfailure := attemptFailure_of_execute delay hexecute
          cases outcome with
          | ok =>
              refine ⟨0, .here fun hlock => ?_, ?_⟩
              · simp [meetsLock, hfailure, failure?] at hlock
              · rw [hfailure, attemptState, hexecute]
                rfl
          | error e =>
              cases hretriable : e.isRetriable with
              | false =>
                  refine ⟨0, .here fun hlock => ?_, ?_⟩
                  · simp [meetsLock, hfailure, failure?, hretriable] at hlock
                  · rw [hfailure, attemptState, hexecute]
                    dsimp only
                    rw [hretriable]
                    rfl
              | true =>
                  have hlock : meetsLock engine delay s 0 = true := by
                    simp [meetsLock, hfailure, failure?, hretriable]
                  obtain ⟨hdelay, hpause⟩ := hwait hlock (Nat.succ_ne_zero left)
                  obtain ⟨retries, hstops, hrun⟩ :=
                    ih (attempt + 1) (attemptState engine delay s 1) fun _ _ => ⟨hdelay, hpause⟩
                  refine ⟨retries + 1, hstops.retried hlock, ?_⟩
                  rw [attemptFailure_succ, attemptState_succ] at hrun
                  have hfirst : engine.sleep delay s' = attemptState engine delay s 1 := by
                    rw [attemptState, attemptState, hexecute]
                  simp only [hretriable, Bool.not_true, Bool.false_eq_true, if_false, hdelay,
                    hpause, hfirst, hrun, retryNotices_succ]

end Attempts

/-- A call as it is asked for, and how it fails. -/
def asking (call : Call) : Request × Option EngineError :=
  (call.request, call.failure)

section Journaled

variable (engine : Engine σ) (delay : Double) (j : Journal σ)

/-- A call on an engine with a journal goes as it does on the engine, and is noted. -/
theorem execute_journaled (command : Command) (params : Option (Fields Text)) :
    (engine.journaled.execute command params j).1 = (engine.execute command params j.state).1 ∧
      (engine.journaled.execute command params j).2.state =
        (engine.execute command params j.state).2 ∧
      (engine.journaled.execute command params j).2.calls.map asking = j.calls.map asking ++
        [(.execute command params, failure? (engine.execute command params j.state).1)] := by
  rcases journaled_execute_cases engine command params j with ⟨s, hs, hj⟩ | ⟨e, s, hs, hj⟩
  · rw [hs, hj]
    exact ⟨rfl, rfl, by simp [Journal.note, asking, failure?]⟩
  · rw [hs, hj]
    exact ⟨rfl, rfl, by simp [Journal.note, asking, failure?]⟩

theorem attemptState_journaled (n : Nat) :
    (attemptState engine.journaled delay j n).state = attemptState engine delay j.state n := by
  induction n with
  | zero => rfl
  | succ n ih =>
      rw [attemptState, attemptState, ← ih, ← (execute_journaled engine _ commit none).2.1]
      rfl

theorem attemptFailure_journaled (n : Nat) :
    attemptFailure engine.journaled delay j n = attemptFailure engine delay j.state n := by
  rw [attemptFailure, (execute_journaled engine _ commit none).1, attemptState_journaled,
    attemptFailure]

theorem StopsBehind.of_journaled {left retries : Nat}
    (h : StopsBehind engine.journaled delay j left retries) :
    StopsBehind engine delay j.state left retries := by
  have hlock : ∀ i, meetsLock engine.journaled delay j i = meetsLock engine delay j.state i :=
    fun i => by rw [meetsLock, attemptFailure_journaled, meetsLock]
  exact ⟨h.le, fun i hi => hlock i ▸ h.locked i hi, fun hlast => h.last ((hlock _).trans hlast)⟩

/-- Attempts that are each followed by a pause are noted with their pauses. -/
theorem calls_attemptState (n : Nat) :
    (attemptState engine.journaled delay j n).calls.map asking = j.calls.map asking ++
      (List.range n).flatMap fun i =>
        [(own commit, attemptFailure engine delay j.state i), (.pause delay, none)] := by
  induction n with
  | zero => simp [attemptState]
  | succ n ih =>
      have hcalls := (execute_journaled engine (attemptState engine.journaled delay j n)
        commit none).2.2
      rw [ih, attemptState_journaled] at hcalls
      have hpaused : (attemptState engine.journaled delay j (n + 1)).calls.map asking =
          (engine.journaled.execute commit none
            (attemptState engine.journaled delay j n)).2.calls.map asking ++
              [(.pause delay, none)] := by
        simp [attemptState, Engine.journaled, Journal.note, asking]
      rw [hpaused, hcalls, List.range_succ, List.flatMap_append]
      simp [attemptFailure, own]

/-- What is noted of the attempts with some number of retries. -/
theorem calls_attempted (retries : Nat) :
    (engine.journaled.execute commit none
        (attemptState engine.journaled delay j retries)).2.calls.map asking =
      j.calls.map asking ++
        attempted delay (attemptFailure engine delay j.state) retries := by
  rw [(execute_journaled engine _ commit none).2.2, calls_attemptState, attemptState_journaled,
    attempted, List.append_assoc]
  rfl

end Journaled

/-- A commit that is tried as long as it meets a lock, and never more often than once and as many
times again as the settings allow. Between two attempts stand one pause of the length that is set
and one warning, numbered from one on. It ends as its last attempt does. -/
def Persists (engine : Engine σ) (settings : Settings) (limit : Int) (s : σ)
    (stage : Stage (Journal σ) Interruption) : Prop :=
  ∃ (retries : Nat) (delay : Double), (0 < retries → settings.retryDelay = .ok delay) ∧
    (retries : Int) ≤ max limit 0 ∧ (∀ i < retries, meetsLock engine delay s i = true) ∧
    (meetsLock engine delay s retries = true → (retries : Int) = max limit 0) ∧
    stage.state.calls.map asking = attempted delay (attemptFailure engine delay s) retries ∧
    stage.notices = (List.range retries).map (fun i => .commitRetried (i + 1) limit) ∧
    stage.outcome = ending (attemptFailure engine delay s retries)

section Persists

variable {engine : Engine σ} {settings : Settings} {limit : Int} {s : σ}

theorem commitAll_eq (engine : Engine σ) (hlimit : settings.maxRetries = .ok limit) (s : σ) :
    commitAll engine settings s =
      commitFrom engine ⟨limit, settings.retryDelay⟩ 0 limit.toNat s := by
  rw [commitAll, hlimit]

/-- Whether the first attempt meets a lock does not depend on a delay. -/
theorem meetsLock_zero_iff {delay : Double} : meetsLock engine delay s 0 = true ↔
    ∃ e, (engine.execute commit none s).1 = .error e ∧ e.isRetriable = true := by
  rw [meetsLock, attemptFailure, attemptState]
  cases (engine.execute commit none s).1 with
  | ok u => simp [failure?]
  | error e => simp [failure?]

theorem meetsLock_journaled (engine : Engine σ) (delay : Double) (j : Journal σ) (n : Nat) :
    meetsLock engine.journaled delay j n = meetsLock engine delay j.state n := by
  rw [meetsLock, attemptFailure_journaled, meetsLock]

theorem length_attempted (delay : Double) (outcomes : Nat → Option EngineError) (retries : Nat) :
    (attempted delay outcomes retries).length = 2 * retries + 1 := by
  simp [attempted, List.length_flatMap, Nat.mul_comm]

/-- The attempts go on as the settings say where a first lock can be waited for. -/
theorem commitAll_persists {delay : Double} (hlimit : settings.maxRetries = .ok limit)
    (hwait : meetsLock engine delay s 0 = true → 0 < limit →
      waiting engine settings = .ok delay) :
    Persists engine settings limit s (commitAll engine.journaled settings ⟨s, []⟩) ∧
      (commitAll engine.journaled settings ⟨s, []⟩).forget = commitAll engine settings s := by
  have hpause : meetsLock engine delay s 0 = true → limit.toNat ≠ 0 →
      settings.retryDelay = .ok delay ∧ engine.pauseFault? delay = none :=
    fun hlock hleft => waiting_ok_iff.1 (hwait hlock (by omega))
  obtain ⟨retries, hstops, hplain⟩ :=
    commitFrom_eq engine ⟨limit, settings.retryDelay⟩ 0 limit.toNat s hpause
  obtain ⟨retries', hstops', hnoted⟩ :=
    commitFrom_eq engine.journaled ⟨limit, settings.retryDelay⟩ 0 limit.toNat ⟨s, []⟩
      fun hlock => hpause ((meetsLock_journaled engine delay ⟨s, []⟩ 0).symm.trans hlock)
  obtain rfl : retries' = retries := (hstops'.of_journaled engine delay).unique hstops
  have hmax : max limit 0 = (limit.toNat : Int) := (Int.toNat_eq_max limit).symm
  rw [attemptFailure_journaled] at hnoted
  rw [commitAll_eq _ hlimit, commitAll_eq _ hlimit, hnoted, hplain]
  constructor
  · refine ⟨retries', delay, fun hretried => ?_, hmax ▸ Int.ofNat_le.2 hstops.le, hstops.locked,
      fun hlast => hmax ▸ congrArg _ (hstops.last hlast), ?_, ?_, rfl⟩
    · exact (hpause (hstops.locked 0 hretried) (by have := hstops.le; omega)).1
    · exact calls_attempted engine delay ⟨s, []⟩ retries'
    · exact List.map_congr_left fun i _ => by rw [Nat.zero_add]
  · rw [Stage.forget, (execute_journaled engine _ commit none).2.1, attemptState_journaled]

/-- A first lock that is to be waited for ends the attempts where no pause can be made. -/
theorem commitAll_of_unwaited {s' : σ} {e : EngineError} {why : Interruption}
    (hlimit : settings.maxRetries = .ok limit) (hpositive : 0 < limit)
    (hwhy : waiting engine settings = .error why)
    (hexecute : engine.execute commit none s = (.error e, s')) (hretriable : e.isRetriable = true) :
    commitAll engine settings s = ⟨[.commitRetried 1 limit], .error why, s'⟩ := by
  obtain ⟨left, hleft⟩ : ∃ left, limit.toNat = left + 1 :=
    Nat.exists_eq_succ_of_ne_zero (by omega)
  rw [commitAll_eq _ hlimit, hleft, commitFrom_of_unwaited hwhy hexecute hretriable]

/-- Of such attempts the first one and the warning of a retry are noted. -/
theorem commitAll_notes_of_unwaited {e : EngineError} {why : Interruption}
    (hlimit : settings.maxRetries = .ok limit) (hpositive : 0 < limit)
    (hwhy : waiting engine settings = .error why)
    (hfails : (engine.execute commit none s).1 = .error e) (hretriable : e.isRetriable = true) :
    (commitAll engine.journaled settings ⟨s, []⟩).state.calls.map asking = [(own commit, some e)] ∧
      (commitAll engine.journaled settings ⟨s, []⟩).notices = [.commitRetried 1 limit] ∧
      (commitAll engine.journaled settings ⟨s, []⟩).outcome = .error why ∧
      (commitAll engine.journaled settings ⟨s, []⟩).forget = commitAll engine settings s := by
  have hwhy' : waiting engine.journaled settings = .error why := hwhy
  rcases journaled_execute_cases engine commit none (⟨s, []⟩ : Journal σ) with
    ⟨s', hs, -⟩ | ⟨e', s', hs, hj⟩
  · cases (congrArg Prod.fst hs).symm.trans hfails
  · obtain rfl : e' = e := Except.error.inj ((congrArg Prod.fst hs).symm.trans hfails)
    rw [commitAll_of_unwaited hlimit hpositive hwhy' hj hretriable,
      commitAll_of_unwaited hlimit hpositive hwhy hs hretriable]
    exact ⟨rfl, rfl, rfl, rfl⟩

/-- Where a first lock can be waited for there is a delay with which it is. -/
theorem exists_delay_of_canWait
    (h : (∃ e, (engine.execute commit none s).1 = .error e ∧ e.isRetriable = true) →
      CanWait engine settings limit) :
    ∃ delay, meetsLock engine delay s 0 = true → 0 < limit →
      waiting engine settings = .ok delay := by
  cases hwaiting : waiting engine settings with
  | ok delay => exact ⟨delay, fun _ _ => rfl⟩
  | error why =>
      refine ⟨.nan, fun hlock hpositive => ?_⟩
      exact absurd (h (meetsLock_zero_iff.1 hlock))
        (not_canWait_iff.2 ⟨hpositive, why, hwaiting⟩)

/-- Attempts that persist do not end with one that meets a lock and is to be tried again. -/
theorem Persists.not_locked_once {stage : Stage (Journal σ) Interruption} {e : EngineError}
    (h : Persists engine settings limit s stage) (hpositive : 0 < limit)
    (hfails : (engine.execute commit none s).1 = .error e) (hretriable : e.isRetriable = true) :
    stage.state.calls.map asking ≠ [(own commit, some e)] := by
  obtain ⟨retries, delay, -, -, -, hlast, hcalls, -⟩ := h
  intro hone
  have hlength : 1 = 2 * retries + 1 := by
    rw [← length_attempted delay, ← hcalls, hone, List.length_singleton]
  obtain rfl : retries = 0 := by omega
  have hnone := hlast (meetsLock_zero_iff.2 ⟨e, hfails, hretriable⟩)
  omega

end Persists

/-- A commit persists just if its first attempt meets no lock that is to be waited for where no
pause can be made. With such a lock that attempt is the only one, behind it stands the warning of a
retry, and the commit ends with why there is no pause. -/
theorem commitAll_persists_iff (engine : Engine σ) (settings : Settings) (s : σ) {limit : Int}
    (hlimit : settings.maxRetries = .ok limit) :
    (Persists engine settings limit s (commitAll engine.journaled settings ⟨s, []⟩) ↔
      ((∃ e, (engine.execute commit none s).1 = .error e ∧ e.isRetriable = true) →
        CanWait engine settings limit)) ∧
    (∀ e why, (engine.execute commit none s).1 = .error e → e.isRetriable = true → 0 < limit →
      waiting engine settings = .error why →
      (commitAll engine.journaled settings ⟨s, []⟩).state.calls.map asking =
          [(own commit, some e)] ∧
        (commitAll engine.journaled settings ⟨s, []⟩).notices = [.commitRetried 1 limit] ∧
        (commitAll engine.journaled settings ⟨s, []⟩).outcome = .error why) ∧
    (commitAll engine.journaled settings ⟨s, []⟩).forget = commitAll engine settings s := by
  by_cases hpatient : (∃ e, (engine.execute commit none s).1 = .error e ∧ e.isRetriable = true) →
      CanWait engine settings limit
  · obtain ⟨delay, hwait⟩ := exists_delay_of_canWait hpatient
    obtain ⟨hpersists, hforget⟩ := commitAll_persists hlimit hwait
    refine ⟨iff_of_true hpersists hpatient, fun e why hfails hretriable hpositive hwhy => ?_,
      hforget⟩
    exact absurd (hpatient ⟨e, hfails, hretriable⟩) (not_canWait_iff.2 ⟨hpositive, why, hwhy⟩)
  · obtain ⟨⟨e, hfails, hretriable⟩, hnever⟩ := Classical.not_imp.1 hpatient
    obtain ⟨hpositive, why, hwhy⟩ := not_canWait_iff.1 hnever
    obtain ⟨hcalls, hnotices, houtcome, hforget⟩ :=
      commitAll_notes_of_unwaited hlimit hpositive hwhy hfails hretriable
    refine ⟨iff_of_false (fun h => h.not_locked_once hpositive hfails hretriable hcalls) hpatient,
      fun e' why' hfails' _ _ hwhy' => ?_, hforget⟩
    obtain rfl := Except.error.inj (hfails.symm.trans hfails')
    obtain rfl := Except.error.inj (hwhy.symm.trans hwhy')
    exact ⟨hcalls, hnotices, houtcome⟩

/-- An engine on which the attempts to commit end as a sequence says. -/
def scripted (outcomes : Nat → Option EngineError) : Engine Nat where
  connect _ n := n
  execute _ _ n :=
    match outcomes n with
    | none => (.ok (), n + 1)
    | some e => (.error e, n + 1)
  inTransaction _ := true
  sleep _ n := n
  pauseFault? := shortPauses
  close n := n

/-- Every sequence of outcomes is met. -/
theorem attemptFailure_scripted (outcomes : Nat → Option EngineError) (delay : Double) :
    attemptFailure (scripted outcomes) delay 0 = outcomes := by
  have hexecute : ∀ n, (scripted outcomes).execute commit none n =
      (match outcomes n with
        | none => .ok ()
        | some e => .error e, n + 1) := by
    intro n
    cases h : outcomes n with
    | none => simp [scripted, h]
    | some e => simp [scripted, h]
  have hstate : ∀ n, attemptState (scripted outcomes) delay 0 n = n := by
    intro n
    induction n with
    | zero => rfl
    | succ n ih => rw [attemptState, ih, hexecute]; rfl
  funext n
  rw [attemptFailure, hstate, hexecute]
  cases outcomes n with
  | none => rfl
  | some e => rfl

/-- The lock that an attempt to commit meets. -/
def busy : EngineError :=
  ⟨.operational, "database is locked", none⟩

/-- A commit that meets a lock twice succeeds with the third attempt, behind two warnings. -/
theorem commitAll_persists_of_locks :
    ∃ settings delay, Settings.load .builtIn = .ok settings ∧ settings.maxRetries = .ok 3 ∧
      settings.retryDelay = .ok delay ∧
      let engine := scripted fun n => if n < 2 then some busy else none
      let stage := commitAll engine.journaled settings ⟨0, []⟩
      stage.notices = [.commitRetried 1 3, .commitRetried 2 3] ∧
        stage.state.calls.map asking =
          [(own commit, some busy), (.pause delay, none), (own commit, some busy),
            (.pause delay, none), (own commit, none)] ∧
        stage.outcome = .ok () := by
  obtain ⟨settings, hload, h⟩ := exists_of_passes (show passes (fun settings =>
      passes (· == 3) settings.maxRetries &&
        passes (fun delay => (shortPauses delay).isNone) settings.retryDelay)
      (Settings.load .builtIn) = true by decide +kernel)
  obtain ⟨hlimit, hdelay⟩ := Bool.and_eq_true_iff.1 h
  obtain ⟨limit, hlimit, hthree⟩ := exists_of_passes hlimit
  obtain rfl := eq_of_beq hthree
  obtain ⟨delay, hdelay, hpause⟩ := exists_of_passes hdelay
  refine ⟨settings, delay, hload, hlimit, hdelay, ?_⟩
  intro engine stage
  have hwait : CanWait engine settings 3 :=
    .inr ⟨delay, waiting_ok_iff.2 ⟨hdelay, Option.isNone_iff_eq_none.1 hpause⟩⟩
  obtain ⟨retries, delay', hset, -, hlocked, hlast, hcalls, hnotices, houtcome⟩ :=
    (commitAll_persists_iff engine settings 0 hlimit).1.2 fun _ => hwait
  rw [attemptFailure_scripted] at hcalls houtcome
  have hlock : ∀ n, meetsLock engine delay' 0 n = decide (n < 2) := by
    intro n
    rw [meetsLock, attemptFailure_scripted]
    by_cases hn : n < 2
    · simp only [hn, if_true, decide_true]
      decide
    · simp [hn]
  obtain rfl : retries = 2 := by
    have hnot := hlocked 2
    have hthird := hlast
    simp only [hlock, decide_eq_true_eq] at hnot hthird
    omega
  obtain rfl := Except.ok.inj ((hset (by decide)).symm.trans hdelay)
  exact ⟨hnotices, hcalls, houtcome⟩

/-- With a retry behind so many seconds a commit does not persist that would succeed with its second
attempt. -/
def GivesUp (seconds : Nat) : Prop :=
  ∃ settings, Settings.load (.value (delayedSettings seconds)) = .ok settings ∧
    settings.maxRetries = .ok 1 ∧
    let engine := scripted fun n => if n < 1 then some busy else none
    ¬ Persists engine settings 1 0 (commitAll engine.journaled settings ⟨0, []⟩)

/-- A commit does not persist where its first attempt is the only call. -/
theorem givesUp_of_run {seconds : Nat} (hrun : passes (fun settings =>
      passes (· == 1) settings.maxRetries &&
      ((commitAll (scripted fun n => if n < 1 then some busy else none).journaled settings
        ⟨0, []⟩).state.calls.map Call.failure == [some busy]))
      (Settings.load (.value (delayedSettings seconds))) = true) : GivesUp seconds := by
  obtain ⟨settings, hload, h⟩ := exists_of_passes hrun
  obtain ⟨hlimit, hfailures⟩ := Bool.and_eq_true_iff.1 h
  obtain ⟨limit, hlimit, hone⟩ := exists_of_passes hlimit
  refine ⟨settings, hload, eq_of_beq hone ▸ hlimit, ?_⟩
  intro engine hpersists
  have hfirst : (engine.execute commit none 0).1 = .error busy := rfl
  refine hpersists.not_locked_once Int.one_pos hfirst (by decide) ?_
  obtain ⟨retries, delay, -, -, -, -, hcalls, -⟩ := hpersists
  have hlength := congrArg List.length (eq_of_beq hfailures)
  have hattempted := congrArg List.length hcalls
  rw [length_attempted, List.length_map] at hattempted
  rw [List.length_map, List.length_singleton] at hlength
  have hretries : 2 * retries + 1 = 1 := hattempted.symm.trans hlength
  obtain rfl : retries = 0 := by omega
  rw [hcalls, attempted, attemptFailure_scripted]
  rfl

/-- A delay too long for a pause, and one out of range, end a commit at its first attempt. -/
theorem commitAll_not_persists : GivesUp (Nat.pow 10 10) ∧ GivesUp (Nat.pow 10 310) := by
  constructor
  · exact givesUp_of_run (by decide +kernel)
  · exact givesUp_of_run (by decide +kernel)

end Installer

end Restate
