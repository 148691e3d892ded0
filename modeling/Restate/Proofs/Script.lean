import Restate.CommandLine.Program
import Restate.Proofs.Restatement
import Restate.Proofs.Sqlite.Statements

/-!
# Scripts as SQLite reads them

A script puts a semicolon behind each query. Main statement: SQLite separates a script into its
queries just if each query ends outside quoted spans and comments (`restateFile_readAs_iff`). A
query that ends in a line comment takes its semicolon into the comment.
-/

namespace Restate

open Text Sqlite CommandLine

section OneLine

theorem newline_not_mem_toDigitsCore (fuel n : Nat) {digits : Text} (h : '\n' ∉ digits) :
    '\n' ∉ Nat.toDigitsCore 16 fuel n digits := by
  have hdigit : ∀ m < 16, '\n' ≠ Nat.digitChar m := by decide
  induction fuel generalizing n digits with
  | zero => exact h
  | succ fuel ih =>
      have hnext : '\n' ∉ Nat.digitChar (n % 16) :: digits := by
        simp only [List.mem_cons, not_or]
        exact ⟨hdigit _ (Nat.mod_lt _ (by decide)), h⟩
      rw [Nat.toDigitsCore]
      split
      · exact hnext
      · exact ih _ hnext

theorem newline_not_mem_unitEscape (n : Nat) : '\n' ∉ Json.unitEscape n := by
  have := newline_not_mem_toDigitsCore (n + 1) n (List.not_mem_nil (a := '\n'))
  simp [Json.unitEscape, hexPadded, Nat.toDigits, this]

theorem newline_not_mem_charText (ascii : Bool) (c : Char) : '\n' ∉ Json.charText ascii c := by
  unfold Json.charText
  split
  · next hc =>
      rcases hc with rfl | rfl
      · decide
      · decide
  · split
    · decide
    · next hc =>
        have hc : '\n' ≠ c := Ne.symm hc
        repeat' split
        all_goals simp [newline_not_mem_unitEscape, hc]

theorem newline_not_mem_stringText (ascii : Bool) (s : Text) :
    '\n' ∉ Json.stringText ascii s := by
  simp [Json.stringText, newline_not_mem_charText]

theorem not_mem_intercalate {c : Char} {separator : Text} (hseparator : c ∉ separator)
    {parts : List Text} (h : ∀ part ∈ parts, c ∉ part) : c ∉ List.intercalate separator parts := by
  induction parts with
  | nil => simp [List.intercalate]
  | cons part parts ih =>
      obtain ⟨hpart, hparts⟩ := List.forall_mem_cons.1 h
      cases parts with
      | nil => simpa [List.intercalate] using hpart
      | cons next parts =>
          have := ih hparts
          simp only [List.intercalate, List.intersperse_cons_cons, List.flatten_cons,
            List.mem_append,
            not_or] at this ⊢
          exact ⟨hpart, hseparator, this⟩

theorem newline_not_mem_writeFields (params : Fields Text) :
    ∀ field ∈ Json.writeFields .readable (params.map fun (name, value) => (name, .str value)),
      '\n' ∉ field := by
  induction params with
  | nil => simp [Json.writeFields]
  | cons param params ih =>
      rw [List.map_cons, Json.writeFields]
      refine List.forall_mem_cons.2 ⟨?_, ih⟩
      have hcolon : '\n' ∉ Json.Style.readable.colon := by decide
      simp [Json.write, newline_not_mem_stringText, hcolon]

/-- The parameters of a query stay on one line, whatever their values. -/
theorem Script.isCommentLine_paramsLine (query : Query) :
    IsCommentLine (Script.paramsLine query) := by
  unfold Script.paramsLine
  split
  · exact .inl rfl
  · right
    have hseparator : '\n' ∉ Json.Style.readable.separator := by decide
    have hfields := not_mem_intercalate hseparator (newline_not_mem_writeFields query.params)
    refine ⟨" params: " ++ query.paramsJson.write .readable, ?_, rfl⟩
    simp [Query.paramsJson, Json.write, hfields]

end OneLine

namespace Script

/-- What is read of a query in a script: the line of its parameters, the query as it is read by
itself, the semicolon behind it and a blank line. -/
def readEntry (query : Query) : List Sqlite.Lexeme :=
  lexemes apart (paramsLine query) ++ lexemes apart query.command.text ++
    [semicolon, ⟨.code, ['\n']⟩, ⟨.code, ['\n']⟩]

/-- A script is read as its queries in order, each as it is read by itself and with its
semicolon. -/
def ReadAs (script : Text) (queries : List Query) : Prop :=
  lexemes apart script = lexemes apart header ++ queries.flatMap readEntry

instance (script : Text) (queries : List Query) : Decidable (ReadAs script queries) :=
  inferInstanceAs (Decidable (_ = _))

variable {queries : List Query} {script : Text}

theorem closed_header : Closed header := by
  have hheader : header = "-- Auto-translated from MySQL to SQLite\n".toList ++
      ("-- Review carefully before executing\n".toList ++ ['\n']) := by decide
  have hfirst : IsCommentLine "-- Auto-translated from MySQL to SQLite\n" :=
    .inr ⟨" Auto-translated from MySQL to SQLite", by decide, by decide⟩
  have hsecond : IsCommentLine "-- Review carefully before executing\n" :=
    .inr ⟨" Review carefully before executing", by decide, by decide⟩
  rw [hheader]
  exact hfirst.closed.append (hsecond.closed.append (closed_lone (by decide)))

theorem lexemes_newlines (s : Text) :
    lexemes apart ('\n' :: '\n' :: s) = ⟨.code, ['\n']⟩ :: ⟨.code, ['\n']⟩ :: lexemes apart s := by
  rw [lexemes_lone (by decide), lexemes_lone (by decide)]

/-- A query in a script is read by itself just if its semicolon is read as one. -/
theorem lexemes_entry_iff {query : Query} {more : Text} {after : List Sqlite.Lexeme} :
    lexemes apart (entry query ++ more) = readEntry query ++ after ↔
      Outside query.command.text ∧ lexemes apart more = after := by
  have hentry : entry query ++ more =
      paramsLine query ++ (query.command.text ++ ';' :: '\n' :: '\n' :: more) := by
    simp [entry]
  have hread : readEntry query ++ after =
      lexemes apart (paramsLine query) ++ (lexemes apart query.command.text ++
        semicolon :: ⟨.code, ['\n']⟩ :: ⟨.code, ['\n']⟩ :: after) := by
    simp [readEntry]
  rw [hentry, hread, (isCommentLine_paramsLine query).closed, List.append_right_inj,
    lexemes_terminated_iff, lexemes_newlines]
  simp

theorem lexemes_entries_iff :
    lexemes apart (queries.flatMap entry) = queries.flatMap readEntry ↔
      ∀ query ∈ queries, Outside query.command.text := by
  induction queries with
  | nil => simp [lexemes]
  | cons query queries ih =>
      rw [List.flatMap_cons, List.flatMap_cons, lexemes_entry_iff, ih, List.forall_mem_cons]

theorem readAs_render_iff :
    ReadAs (render queries) queries ↔ ∀ query ∈ queries, Outside query.command.text := by
  unfold ReadAs render
  rw [closed_header, List.append_right_inj, lexemes_entries_iff]

theorem code_of_readAs (h : ReadAs script queries) :
    code script =
      (queries.map fun query => code query.command.text).flatMap (· ++ [semicolon]) := by
  have hheader : code header = [] := by decide +kernel
  have hentry : ∀ query, (readEntry query).filter (fun l => !l.isTrivia) =
      code query.command.text ++ [semicolon] := by
    intro query
    have hline := (isCommentLine_paramsLine query).code_eq
    have hbehind : [semicolon, ⟨.code, ['\n']⟩, ⟨.code, ['\n']⟩].filter (fun l => !l.isTrivia) =
        [semicolon] := by decide
    unfold code at hline ⊢
    rw [readEntry, List.filter_append, List.filter_append, hline, hbehind, List.nil_append]
  unfold code at hheader ⊢
  rw [h, List.filter_append, hheader, List.nil_append, List.filter_flatMap, List.flatMap_map]
  exact List.flatMap_congr fun query _ => hentry query

/-- SQLite separates such a script into its queries just if none holds a semicolon of its own. -/
theorem statements_iff_of_readAs (h : ReadAs script queries) :
    statements script = (queries.map fun query => code query.command.text) ++ [[]] ↔
      ∀ query ∈ queries, semicolon ∉ code query.command.text := by
  unfold statements
  rw [code_of_readAs h, splitOnP_terminated_iff (by simp), List.forall_mem_map]
  apply forall₂_congr
  intro query _
  constructor
  · intro hcode hmem
    simpa using hcode _ hmem
  · intro hnot l hl
    have : l ≠ semicolon := by
      rintro rfl
      exact hnot hl
    simpa using this

end Script

/-- SQLite reads the script of a file as the queries in order, each by itself and with its
semicolon, just if each query ends outside quoted spans and comments. The parameters stay on their
lines. -/
theorem restateFile_readAs_iff {settings : Settings} {contents output script : Text}
    {notices : List Notice} {count : Nat}
    (h : restateFile settings contents output = (notices, .ok (count, script))) :
    ∃ queries, (BatchReport.ofBatch settings (unifyLineEnds contents)).outcome = .ok queries ∧
      queries.length = count ∧ script = Script.render queries ∧
      (∀ query ∈ queries, IsCommentLine (Script.paramsLine query)) ∧
      (Script.ReadAs script queries ↔ ∀ query ∈ queries, Outside query.command.text) ∧
      (Script.ReadAs script queries →
        (statements script = (queries.map fun query => code query.command.text) ++ [[]] ↔
          ∀ query ∈ queries, semicolon ∉ code query.command.text)) := by
  unfold restateFile at h
  dsimp only at h
  split at h
  · simp at h
  · next queries hqueries =>
      obtain ⟨-, hok⟩ := Prod.mk.inj h
      obtain ⟨rfl, rfl⟩ := Prod.mk.inj (Except.ok.inj hok)
      exact ⟨queries, hqueries, rfl, rfl, fun query _ => Script.isCommentLine_paramsLine query,
        Script.readAs_render_iff, Script.statements_iff_of_readAs⟩

/-- A literal with a semicolon and a line end, and a comment inside a query, do no harm. -/
theorem restateFile_readAs_of_code :
    ∃ settings notices script queries, Settings.load .builtIn = .ok settings ∧
      restateFile settings "SELECT 'a;\nb' -- c\n, 1;\nSELECT 2" "out.sql" =
        (notices, .ok (2, script)) ∧
      (BatchReport.ofBatch settings (unifyLineEnds "SELECT 'a;\nb' -- c\n, 1;\nSELECT 2")).outcome =
        .ok queries ∧
      Script.ReadAs script queries ∧
      statements script = (queries.map fun query => code query.command.text) ++ [[]] := by
  obtain ⟨settings, hload, h⟩ := exists_of_passes (show passes (fun settings =>
      passes (fun restated => decide (restated.1 = 2))
        (restateFile settings "SELECT 'a;\nb' -- c\n, 1;\nSELECT 2" "out.sql").2
      && passes (fun queries => decide (∀ query ∈ queries,
          Outside query.command.text ∧ semicolon ∉ code query.command.text))
        (BatchReport.ofBatch settings
          (unifyLineEnds "SELECT 'a;\nb' -- c\n, 1;\nSELECT 2")).outcome)
      (Settings.load .builtIn) = true by decide +kernel)
  obtain ⟨hrestate, hends⟩ := Bool.and_eq_true_iff.1 h
  obtain ⟨⟨count, script⟩, hrestate, hcount⟩ := exists_of_passes hrestate
  obtain rfl : count = 2 := of_decide_eq_true hcount
  obtain ⟨queries, hqueries, -, -, -, hreadAs, hstatements⟩ :=
    restateFile_readAs_iff (Prod.ext rfl hrestate)
  rw [hqueries] at hends
  have hends := of_decide_eq_true hends
  have hread := hreadAs.2 fun query hquery => (hends query hquery).1
  exact ⟨settings, _, script, queries, hload, Prod.ext rfl hrestate, hqueries, hread,
    (hstatements hread).2 fun query hquery => (hends query hquery).2⟩

/-- A comment at the end of a query takes the semicolon with it, and the next query is read as a
part of it. -/
theorem restateFile_not_readAs :
    ∃ settings notices script queries, Settings.load .builtIn = .ok settings ∧
      restateFile settings "SELECT 1 -- one\n;\nSELECT 2;\n" "out.sql" =
        (notices, .ok (2, script)) ∧
      (BatchReport.ofBatch settings (unifyLineEnds "SELECT 1 -- one\n;\nSELECT 2;\n")).outcome =
        .ok queries ∧
      ¬ Script.ReadAs script queries ∧ statements script = [code "SELECT 1\nSELECT 2", []] := by
  obtain ⟨settings, hload, h⟩ := exists_of_passes (show passes (fun settings =>
      passes (fun restated => decide (restated.1 = 2) &&
        passes (fun queries => decide (¬ Script.ReadAs restated.2 queries ∧
            statements restated.2 = [code "SELECT 1\nSELECT 2", []]))
          (BatchReport.ofBatch settings
            (unifyLineEnds "SELECT 1 -- one\n;\nSELECT 2;\n")).outcome)
        (restateFile settings "SELECT 1 -- one\n;\nSELECT 2;\n" "out.sql").2)
      (Settings.load .builtIn) = true by decide +kernel)
  obtain ⟨⟨count, script⟩, hrestate, h⟩ := exists_of_passes h
  obtain ⟨hcount, h⟩ := Bool.and_eq_true_iff.1 h
  obtain rfl : count = 2 := of_decide_eq_true hcount
  obtain ⟨queries, hqueries, h⟩ := exists_of_passes h
  obtain ⟨hnot, hstatements⟩ := of_decide_eq_true h
  exact ⟨settings, _, script, queries, hload, Prod.ext rfl hrestate, hqueries, hnot, hstatements⟩

end Restate
