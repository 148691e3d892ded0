import Mathlib.Data.List.Forall2
import Restate.CommandLine.Program
import Restate.Proofs.Refusal
import Restate.Proofs.Text.StandIns

/-!
# Files restated as a whole

A batch is restated statement by statement, each as it would be alone, and a script is written only
if none of them fails. So a file should become the script of all its queries in order, or every file
stay as it was, and the error be the lexer's for the whole text, or else that of the first statement
that fails alone (`AllOrNothing`). The script is written piece by piece, though, and a piece with a
lone surrogate in it, which only the settings can bring in, cannot be encoded. Main statement: a
file is restated as a whole or not at all just if its script can be written to its path and holds no
lone surrogate, with which the beginning of the script is left behind (`runFile_allOrNothing_iff`).
-/

namespace Restate

open Text CommandLine

/-- What stands at every path once a program has run. -/
def ProgramRun.leaves (run : ProgramRun) (files : Files) : Files :=
  match run.written with
  | some (path, text) => fun p => if p = path then .file text else files p
  | none => files

section Batch

variable {settings : Settings} {tablePrefix batch statement : Text} {statements : List Text}
  {queries : List Query} {e : Error}

/-- The table prefix is carried along with the queries of a statement. -/
theorem restate_outcome (settings : Settings) (tablePrefix sql : Text) :
    (restate settings tablePrefix sql).outcome =
      (restateStatement settings sql).outcome.map
        fun (kind, queries) => ⟨queries, some kind, tablePrefix⟩ := by
  unfold restate
  cases hstatement : (restateStatement settings sql).outcome with
  | error e => exact Report.bind_error.2 (.inl hstatement)
  | ok restated => exact Report.bind_ok.2 ⟨restated, hstatement, rfl⟩

namespace BatchReport

/-- The first statement is restated as it is alone, and only then the others are. -/
theorem ofStatements_cons (settings : Settings) (tablePrefix statement : Text)
    (statements : List Text) :
    (ofStatements settings (statement :: statements)).outcome = (do
      let r ← (restate settings tablePrefix statement).outcome
      let queries ← (ofStatements settings statements).outcome
      return r.queries ++ queries) := by
  rw [ofStatements, restate_outcome]
  unfold after
  cases (restateStatement settings statement).outcome with
  | error e => rfl
  | ok restated =>
      cases (ofStatements settings statements).outcome with
      | error e => rfl
      | ok queries => rfl

/-- Where a batch is restated, its queries are those of its statements in order. -/
theorem restated_of_ofStatements (tablePrefix : Text)
    (h : (ofStatements settings statements).outcome = .ok queries) :
    ∃ results : List Restatement,
      List.Forall₂ (fun statement r => (restate settings tablePrefix statement).outcome = .ok r)
        statements results ∧ queries = results.flatMap Restatement.queries := by
  induction statements generalizing queries with
  | nil =>
      cases h
      exact ⟨[], .nil, rfl⟩
  | cons statement statements ih =>
      rw [ofStatements_cons settings tablePrefix] at h
      obtain ⟨r, hr, h⟩ := except_bind_ok.1 h
      obtain ⟨others, hothers, h⟩ := except_bind_ok.1 h
      obtain ⟨results, hresults, rfl⟩ := ih hothers
      cases h
      exact ⟨r :: results, .cons hr hresults, rfl⟩

/-- Where a batch is not restated, its error is that of the first statement that fails alone. -/
theorem first_of_ofStatements (tablePrefix : Text)
    (h : (ofStatements settings statements).outcome = .error e) :
    ∃ before statement after, statements = before ++ statement :: after ∧
      (∀ s ∈ before, ∃ r, (restate settings tablePrefix s).outcome = .ok r) ∧
      (restate settings tablePrefix statement).outcome = .error e := by
  induction statements with
  | nil => cases h
  | cons statement statements ih =>
      rw [ofStatements_cons settings tablePrefix] at h
      rcases except_bind_error.1 h with hfails | ⟨r, hr, h⟩
      · exact ⟨[], statement, statements, rfl, by simp, hfails⟩
      · rcases except_bind_error.1 h with hothers | ⟨others, -, hpure⟩
        · obtain ⟨before, first, after, rfl, hbefore, hfails⟩ := ih hothers
          exact ⟨statement :: before, first, after, rfl,
            List.forall_mem_cons.2 ⟨⟨r, hr⟩, hbefore⟩, hfails⟩
        · cases hpure

/-- A batch has no statements just if it is not made of tokens. -/
theorem splitStatements_error : splitStatements batch = .error e ↔ tokenize batch = .error e := by
  unfold splitStatements
  cases htokens : tokenize batch with
  | error e' =>
      change Except.error e' = .error e ↔ Except.error e' = .error e
      simp
  | ok tokens => exact iff_of_false nofun nofun

theorem restated_of_ofBatch (tablePrefix : Text)
    (h : (ofBatch settings batch).outcome = .ok queries) :
    ∃ statements, ∃ results : List Restatement, splitStatements batch = .ok statements ∧
      List.Forall₂ (fun statement r => (restate settings tablePrefix statement).outcome = .ok r)
        statements results ∧ queries = results.flatMap Restatement.queries := by
  unfold ofBatch at h
  split at h
  · cases h
  · next statements hsplit =>
      obtain ⟨results, hresults, hqueries⟩ := restated_of_ofStatements tablePrefix h
      exact ⟨statements, results, hsplit, hresults, hqueries⟩

theorem first_of_ofBatch (tablePrefix : Text) (h : (ofBatch settings batch).outcome = .error e) :
    tokenize batch = .error e ∨ ∃ before statement after,
      splitStatements batch = .ok (before ++ statement :: after) ∧
      (∀ s ∈ before, ∃ r, (restate settings tablePrefix s).outcome = .ok r) ∧
      (restate settings tablePrefix statement).outcome = .error e := by
  unfold ofBatch at h
  split at h
  · next e' hsplit =>
      cases h
      exact .inl (splitStatements_error.1 hsplit)
  · next statements hsplit =>
      obtain ⟨before, statement, after, rfl, hfirst⟩ := first_of_ofStatements tablePrefix h
      exact .inr ⟨before, statement, after, hsplit, hfirst⟩

end BatchReport

end Batch

namespace Script

/-- The pieces in which a script is written make it up. -/
theorem flatten_pieces (queries : List Query) : (pieces queries).flatten = render queries := by
  have hentry : ∀ query, (entryPieces query).flatten = entry query := by
    intro query
    unfold entryPieces entry
    cases hparams : query.params.isEmpty with
    | true => simp [paramsLine, hparams]
    | false => simp
  rw [pieces, render, List.flatten_cons, List.append_right_inj]
  induction queries with
  | nil => rfl
  | cons query queries ih => simp [hentry, ih]

/-- The header holds no lone surrogate. -/
theorem stands_header (standIns : StandIns) : ∀ c ∈ header, standIns.stands c = false := by
  have hlow : header.all (fun c => c.toNat < 0xF0000) = true := by decide +kernel
  intro c hc
  exact standIns.stands_of_lt (of_decide_eq_true (List.all_eq_true.1 hlow c hc))

end Script

section File

variable {standIns : StandIns} {settings : Settings} {contents output : Text} {files : Files}
  {input : Text} {queries : List Query}

theorem failedRun_written (notices : List Notice) (e : Error) :
    (failedRun notices e).written = none := by
  unfold failedRun
  split
  · rfl
  · rfl

theorem failedRun_exit (notices : List Notice) (e : Error) : (failedRun notices e).exit = 1 := by
  unfold failedRun
  split
  · rfl
  · rfl

theorem restateFile_of_ok (output : Text)
    (h : (BatchReport.ofBatch settings (unifyLineEnds contents)).outcome = .ok queries) :
    (restateFile settings contents output).2 = .ok (queries.length, Script.render queries) := by
  simp only [restateFile, h]

theorem restateFile_of_error {e : Error} (output : Text)
    (h : (BatchReport.ofBatch settings (unifyLineEnds contents)).outcome = .error e) :
    (restateFile settings contents output).2 = .error e := by
  simp only [restateFile, h]

/-- A script that can be encoded is written to its path. -/
theorem writeScript_of_free (files : Files) (output : Text) (notices : List Notice)
    (hfree : ∀ c ∈ Script.render queries, standIns.stands c = false) :
    (writeScript standIns notices queries output).exit = 0 ∧
      (writeScript standIns notices queries output).leaves files =
        fun path => if path = output then .file (Script.render queries) else files path := by
  rw [← Script.flatten_pieces] at hfree ⊢
  rw [writeScript, StandIns.encoded_of_free hfree]
  exact ⟨rfl, rfl⟩

/-- Of a script that cannot be encoded a beginning is written, with the header in it. -/
theorem writeScript_of_stands (files : Files) (output : Text) (notices : List Notice)
    (hstands : ∃ c ∈ Script.render queries, standIns.stands c = true) :
    ∃ beginning rest fault, Script.render queries = beginning ++ rest ∧ rest ≠ [] ∧
      Script.header <+: beginning ∧
      (writeScript standIns notices queries output).exit = 1 ∧
      (writeScript standIns notices queries output).escaped = some (.encoding fault) ∧
      (writeScript standIns notices queries output).leaves files =
        fun path => if path = output then .file beginning else files path := by
  rw [← Script.flatten_pieces] at hstands ⊢
  obtain ⟨before, piece, after, fault, hpieces, -, hfault, hencoded⟩ :=
    StandIns.encoded_of_stands hstands
  have hpiece : ¬ ∀ c ∈ piece, standIns.stands c = false := fun hfree => by
    cases (StandIns.fault?_eq_none_iff.2 hfree).symm.trans hfault
  refine ⟨before.flatten, piece ++ after.flatten, fault, ?_, ?_, ?_, ?_⟩
  · rw [hpieces, List.flatten_append, List.flatten_cons]
  · rintro hnil
    obtain rfl := (List.append_eq_nil_iff.1 hnil).1
    exact hpiece (by simp)
  · cases before with
    | nil =>
        obtain ⟨rfl, -⟩ := List.cons.inj hpieces
        exact absurd (Script.stands_header standIns) hpiece
    | cons first before =>
        obtain ⟨rfl, -⟩ := List.cons.inj hpieces
        exact ⟨before.flatten, rfl⟩
  · rw [writeScript, hencoded]
    exact ⟨rfl, rfl, rfl⟩

theorem runFile_of_ok (standIns : StandIns)
    (h : (BatchReport.ofBatch settings (unifyLineEnds contents)).outcome = .ok queries)
    (hread : files.read input = .ok contents) (hwritable : files.writingFault? output = none) :
    runFile standIns settings files input output =
      writeScript standIns (BatchReport.ofBatch settings (unifyLineEnds contents)).notices queries
        output := by
  simp only [runFile, hread, hwritable, h]

/-- Where a script is made but nothing can be written to its path, every file stays. -/
theorem runFile_of_unwritable (standIns : StandIns) {fault : FileFault}
    (h : (BatchReport.ofBatch settings (unifyLineEnds contents)).outcome = .ok queries)
    (hread : files.read input = .ok contents) (hfault : files.writingFault? output = some fault) :
    (runFile standIns settings files input output).exit = 1 ∧
      (runFile standIns settings files input output).escaped = some (.file output fault) ∧
      (runFile standIns settings files input output).leaves files = files := by
  simp only [runFile, hread, hfault, runUnwritable, h]
  exact ⟨rfl, rfl, rfl⟩

/-- Where no script is made, every file stays, whether or not one could be written. -/
theorem runFile_of_error {e : Error}
    (h : (BatchReport.ofBatch settings (unifyLineEnds contents)).outcome = .error e)
    (hread : files.read input = .ok contents) :
    (runFile standIns settings files input output).exit = 1 ∧
      (runFile standIns settings files input output).leaves files = files := by
  have hfailed : runFile standIns settings files input output =
      failedRun (BatchReport.ofBatch settings (unifyLineEnds contents)).notices e := by
    unfold runFile
    rw [hread]
    cases files.writingFault? output with
    | none => simp only [h]
    | some fault => simp only [runUnwritable, h]
  rw [hfailed]
  exact ⟨failedRun_exit _ _, by simp only [ProgramRun.leaves, failedRun_written]⟩

end File

/-- A file is restated as a whole or not at all: either each of its statements is restated as it is
alone, the queries are counted, and the script is written, which is a header and all queries in
order, each behind the line of its parameters if it has any; or there is an error, which is the
lexer's for the whole text or else that of the first statement that fails alone, and every file
stays as it was. -/
def AllOrNothing (standIns : StandIns) (settings : Settings) (tablePrefix : Text) (files : Files)
    (input contents output : Text) : Prop :=
  (∃ statements, ∃ results : List Restatement, ∃ script : Text,
    splitStatements (unifyLineEnds contents) = .ok statements ∧
    List.Forall₂ (fun statement r => (restate settings tablePrefix statement).outcome = .ok r)
      statements results ∧
    (restateFile settings contents output).2 =
      .ok ((results.flatMap Restatement.queries).length, script) ∧
    script = "-- Auto-translated from MySQL to SQLite\n-- Review carefully before executing\n\n"
      ++ (results.flatMap Restatement.queries).flatMap (fun query =>
        (if query.params = [] then []
          else "-- params: ".toList ++ query.paramsJson.write .readable ++ "\n".toList)
        ++ query.command.text ++ ";\n\n".toList) ∧
    (runFile standIns settings files input output).exit = 0 ∧
    (runFile standIns settings files input output).leaves files =
      fun path => if path = output then .file script else files path) ∨
  ∃ e, (restateFile settings contents output).2 = .error e ∧
    (runFile standIns settings files input output).exit = 1 ∧
    (runFile standIns settings files input output).leaves files = files ∧
    (tokenize (unifyLineEnds contents) = .error e ∨ ∃ before statement after,
      splitStatements (unifyLineEnds contents) = .ok (before ++ statement :: after) ∧
      (∀ s ∈ before, ∃ r, (restate settings tablePrefix s).outcome = .ok r) ∧
      (restate settings tablePrefix statement).outcome = .error e)

/-- A run that leaves all or nothing ends without a failure if the file can be restated. -/
theorem AllOrNothing.exit_eq_zero {standIns : StandIns} {settings : Settings}
    {tablePrefix : Text} {files : Files} {input contents output : Text} {scripted : Nat × Text}
    (h : AllOrNothing standIns settings tablePrefix files input contents output)
    (hscripted : (restateFile settings contents output).2 = .ok scripted) :
    (runFile standIns settings files input output).exit = 0 := by
  rcases h with ⟨-, -, -, -, -, -, -, hexit, -⟩ | ⟨e, herror, -⟩
  · exact hexit
  · cases hscripted.symm.trans herror

section AllOrNothing

variable {standIns : StandIns} {settings : Settings} {files : Files}
  {input contents output : Text} {queries : List Query}

theorem allOrNothing_of_free (tablePrefix : Text)
    (hbatch : (BatchReport.ofBatch settings (unifyLineEnds contents)).outcome = .ok queries)
    (hread : files.read input = .ok contents) (hwritable : files.writingFault? output = none)
    (hfree : ∀ c ∈ Script.render queries, standIns.stands c = false) :
    AllOrNothing standIns settings tablePrefix files input contents output := by
  obtain ⟨hexit, hleaves⟩ := writeScript_of_free files output
    (BatchReport.ofBatch settings (unifyLineEnds contents)).notices hfree
  rw [← runFile_of_ok standIns hbatch hread hwritable] at hexit hleaves
  have hfile := restateFile_of_ok output hbatch
  obtain ⟨statements, results, hsplit, hresults, rfl⟩ :=
    BatchReport.restated_of_ofBatch tablePrefix hbatch
  refine .inl ⟨statements, results, _, hsplit, hresults, hfile, ?_, hexit, hleaves⟩
  unfold Script.render Script.header Script.entry Script.paramsLine
  simp only [List.isEmpty_iff]

theorem allOrNothing_of_error {e : Error} (tablePrefix : Text)
    (hbatch : (BatchReport.ofBatch settings (unifyLineEnds contents)).outcome = .error e)
    (hread : files.read input = .ok contents) :
    AllOrNothing standIns settings tablePrefix files input contents output := by
  obtain ⟨hexit, hleaves⟩ :
      (runFile standIns settings files input output).exit = 1 ∧
        (runFile standIns settings files input output).leaves files = files :=
    runFile_of_error hbatch hread
  exact .inr ⟨e, restateFile_of_error output hbatch, hexit, hleaves,
    BatchReport.first_of_ofBatch tablePrefix hbatch⟩

end AllOrNothing

/-- A file is restated as a whole or not at all just if a script of it can be written to its path
and no character of the script stands for a lone surrogate. Where nothing can be written to the path
the run fails and every file stays. With such a character it fails as well, and leaves a beginning
of the script behind. -/
theorem runFile_allOrNothing_iff (standIns : StandIns) (settings : Settings) (tablePrefix : Text)
    {files : Files} {input contents output : Text} (hread : files.read input = .ok contents) :
    (AllOrNothing standIns settings tablePrefix files input contents output ↔
      ∀ count script, (restateFile settings contents output).2 = .ok (count, script) →
        files.writingFault? output = none ∧ ∀ c ∈ script, standIns.stands c = false) ∧
    ∀ count script, (restateFile settings contents output).2 = .ok (count, script) →
      (∀ fault, files.writingFault? output = some fault →
        (runFile standIns settings files input output).exit = 1 ∧
        (runFile standIns settings files input output).escaped = some (.file output fault) ∧
        (runFile standIns settings files input output).leaves files = files) ∧
      (files.writingFault? output = none → (∃ c ∈ script, standIns.stands c = true) →
        ∃ beginning rest fault, script = beginning ++ rest ∧ rest ≠ [] ∧
          Script.header <+: beginning ∧
          (runFile standIns settings files input output).exit = 1 ∧
          (runFile standIns settings files input output).escaped = some (.encoding fault) ∧
          (runFile standIns settings files input output).leaves files =
            fun path => if path = output then .file beginning else files path) := by
  cases hbatch : (BatchReport.ofBatch settings (unifyLineEnds contents)).outcome with
  | error e =>
      have hfile := restateFile_of_error output hbatch
      refine ⟨iff_of_true (allOrNothing_of_error tablePrefix hbatch hread) ?_, ?_⟩
      all_goals
        intro count script hscript
        cases hfile.symm.trans hscript
  | ok queries =>
      have hfile := restateFile_of_ok output hbatch
      have hscript : ∀ {count script},
          (restateFile settings contents output).2 = .ok (count, script) →
            Script.render queries = script := by
        intro count script h
        cases hfile.symm.trans h
        rfl
      cases hwritable : files.writingFault? output with
      | some fault =>
          obtain ⟨hexit, hescaped, hleaves⟩ :=
            runFile_of_unwritable standIns hbatch hread hwritable
          refine ⟨iff_of_false (fun h => ?_) fun h => ?_, fun count script h => ⟨?_, nofun⟩⟩
          · cases hexit.symm.trans (h.exit_eq_zero hfile)
          · cases (h _ _ hfile).1
          · rintro _ hsame
            exact Option.some.inj hsame ▸ ⟨hexit, hescaped, hleaves⟩
      | none =>
          have hrun := runFile_of_ok standIns hbatch hread hwritable
          by_cases hfree : ∀ c ∈ Script.render queries, standIns.stands c = false
          · refine ⟨iff_of_true (allOrNothing_of_free tablePrefix hbatch hread hwritable hfree)
              fun count script h => ⟨rfl, hscript h ▸ hfree⟩, fun count script h => ⟨nofun, ?_⟩⟩
            rintro - ⟨c, hc, hstands⟩
            exact absurd hstands (by simp [hfree c (hscript h ▸ hc)])
          · have hstands : ∃ c ∈ Script.render queries, standIns.stands c = true := by
              simpa using hfree
            obtain ⟨beginning, rest, fault, hcut, hrest, hheader, hexit, hends⟩ :=
              writeScript_of_stands files output
                (BatchReport.ofBatch settings (unifyLineEnds contents)).notices hstands
            rw [← hrun] at hexit hends
            refine ⟨iff_of_false (fun h => ?_) fun h => hfree (h _ _ hfile).2,
              fun count script h => ⟨nofun, fun _ _ =>
                ⟨beginning, rest, fault, hscript h ▸ hcut, hrest, hheader, hexit, hends⟩⟩⟩
            cases hexit.symm.trans (h.exit_eq_zero hfile)

/-- The files of a run: settings whose text for statements without effect is a lone surrogate, a
batch with such a statement behind another, and a folder for the script. -/
def surrogateFiles : Files := fun path =>
  if path = "settings".toList then
    .file "\x7b\"translation\": \x7b\"noop_sql\": \"\\ud800\"\x7d\x7d"
  else if path = "batch".toList then .file "SELECT 1; SET NAMES utf8"
  else if path = ".".toList then .folder
  else .nothing

/-- The built-in settings bring no lone surrogate in, and a batch is restated as a whole. -/
theorem runFile_allOrNothing_of_builtIn :
    ∃ settings, Settings.load .builtIn = .ok settings ∧
      surrogateFiles.read "batch" = .ok "SELECT 1; SET NAMES utf8".toList ∧
      AllOrNothing ⟨some 0⟩ settings "" surrogateFiles "batch" "SELECT 1; SET NAMES utf8"
        "script" := by
  obtain ⟨settings, hload, h⟩ := exists_of_passes (show passes (fun settings =>
      passes (fun scripted => scripted.2.all fun c => !StandIns.stands ⟨some 0⟩ c)
        (restateFile settings "SELECT 1; SET NAMES utf8" "script").2)
      (Settings.load .builtIn) = true by decide +kernel)
  obtain ⟨scripted, hscripted, hfree⟩ := exists_of_passes h
  have hread : surrogateFiles.read "batch" = .ok "SELECT 1; SET NAMES utf8".toList := rfl
  have hwritable : surrogateFiles.writingFault? "script" = none := by decide
  refine ⟨settings, hload, hread,
    (runFile_allOrNothing_iff ⟨some 0⟩ settings "" hread).1.2 fun count script h => ⟨hwritable, ?_⟩⟩
  obtain rfl := Except.ok.inj (hscripted.symm.trans h)
  simpa using hfree

/-- A lone surrogate in the settings ends the run in the middle of the script, of which the header
and the first query are left behind. -/
theorem restateProgram_not_allOrNothing :
    ∃ standIns settings,
      standIns = (settingsBeside surrogateFiles "settings" "SELECT 1; SET NAMES utf8").1 ∧
      Settings.load (settingsBeside surrogateFiles "settings" "SELECT 1; SET NAMES utf8").2 =
        .ok settings ∧
      (restateProgram surrogateFiles
        ["--input", "batch", "--output", "script", "--config", "settings"]).written =
        some ("script".toList, Script.header ++ "SELECT 1;\n\n".toList) ∧
      ¬ AllOrNothing standIns settings "" surrogateFiles "batch" "SELECT 1; SET NAMES utf8"
        "script" := by
  obtain ⟨settings, hload, h⟩ := exists_of_passes (show passes (fun settings =>
      (runFile (settingsBeside surrogateFiles "settings" "SELECT 1; SET NAMES utf8").1 settings
          surrogateFiles "batch" "script").exit == 1 &&
        passes (fun _ => true) (restateFile settings "SELECT 1; SET NAMES utf8" "script").2)
      (Settings.load
        (settingsBeside surrogateFiles "settings" "SELECT 1; SET NAMES utf8").2) = true by
    decide +kernel)
  obtain ⟨hexit, hscript⟩ := Bool.and_eq_true_iff.1 h
  obtain ⟨scripted, hscripted, -⟩ := exists_of_passes hscript
  refine ⟨_, settings, rfl, hload, by decide +kernel, fun hall => ?_⟩
  rw [hall.exit_eq_zero hscripted] at hexit
  cases hexit

end Restate
