import Mathlib.Algebra.BigOperators.Group.List.Basic
import Mathlib.Algebra.GroupWithZero.Nat
import Mathlib.Data.List.Nodup
import Restate.Install.Summary
import Restate.Proofs.WholeScript

/-!
# Ledgers

An installer keeps a row for each statement it has restated. The rows are entered one by one while
a batch is restated, so a statement that fails leaves those of the statements before it, and a new
batch begins with none. Main statement: the rows are those of the statements in order, and they, the
queries and the lines of the summary add up to the same numbers (`BatchReport.ofBatch_addsUp`).
-/

namespace Restate

/-- What an installer keeps: the rows of the batch it has taken last. -/
structure Ledger where
  rows : List BatchRow

namespace Ledger

/-- A statement is restated, and entered behind the rows there are unless it fails. -/
def enter (settings : Settings) (statement : Text) (ledger : Ledger) :
    Except Error (List Query) × Ledger :=
  match (restateStatement settings statement).outcome with
  | .error e => (.error e, ledger)
  | .ok (kind, queries) =>
    (.ok queries, { ledger with rows := ledger.rows ++ [⟨statement, kind, queries.length⟩] })

/-- Statements are entered one after another, up to the first that fails. -/
def enterAll (settings : Settings) : List Text → Ledger → Except Error (List Query) × Ledger
  | [], ledger => (.ok [], ledger)
  | statement :: more, ledger =>
    match ledger.enter settings statement with
    | (.error e, ledger) => (.error e, ledger)
    | (.ok queries, ledger) =>
      let (others, ledger) := enterAll settings more ledger
      (others.map (queries ++ ·), ledger)

def cleared (ledger : Ledger) : Ledger :=
  { ledger with rows := [] }

/-- The rows of an earlier batch are cleared before a batch is even read. -/
def take (settings : Settings) (batch : Text) (ledger : Ledger) :
    Except Error (List Query) × Ledger :=
  match splitStatements batch with
  | .error e => (.error e, ledger.cleared)
  | .ok statements => ledger.cleared.enterAll settings statements

/-- Entering one statement after another makes the report on them all, behind the rows that were
there. -/
theorem enterAll_eq (settings : Settings) (statements : List Text) (ledger : Ledger) :
    enterAll settings statements ledger =
      ((BatchReport.ofStatements settings statements).outcome,
        ⟨ledger.rows ++ (BatchReport.ofStatements settings statements).rows⟩) := by
  induction statements generalizing ledger with
  | nil => rw [enterAll, BatchReport.ofStatements, List.append_nil]
  | cons statement more ih =>
      rw [enterAll, enter, BatchReport.ofStatements, BatchReport.after]
      cases (restateStatement settings statement).outcome with
      | error e => simp only [List.append_nil]
      | ok restated => simp only [ih, List.append_assoc, List.singleton_append]

/-- Whatever an installer kept before, it keeps the rows of the batch it takes. -/
theorem take_eq (settings : Settings) (batch : Text) (ledger : Ledger) :
    ledger.take settings batch = ((BatchReport.ofBatch settings batch).outcome,
      ⟨(BatchReport.ofBatch settings batch).rows⟩) := by
  rw [take, BatchReport.ofBatch]
  cases splitStatements batch with
  | error e => rfl
  | ok statements => exact enterAll_eq settings statements ledger.cleared

end Ledger

/-- The row of a statement: its text, its kind and the number of its queries. -/
def BatchRow.Records (settings : Settings) (tablePrefix statement : Text) (row : BatchRow) : Prop :=
  ∃ r, (restate settings tablePrefix statement).outcome = .ok r ∧ row.statement = statement ∧
    r.kind = some row.kind ∧ row.queries = r.queries.length

section Rows

variable {settings : Settings} {tablePrefix batch : Text} {before : List Text}
  {queries : List Query}

namespace BatchReport

/-- A statement that is restated stands in front of a report with its row and its queries. -/
theorem exists_row_of_after {statement : Text} {r : Restatement} (rest : BatchReport)
    (hr : (restate settings tablePrefix statement).outcome = .ok r) :
    ∃ row : BatchRow, row.Records settings tablePrefix statement ∧
      row.queries = r.queries.length ∧
      (after statement (restateStatement settings statement) rest).rows = row :: rest.rows ∧
      (after statement (restateStatement settings statement) rest).outcome =
        rest.outcome.map (r.queries ++ ·) := by
  have hmap := restate_outcome settings tablePrefix statement
  obtain ⟨restated, hrestated, rfl⟩ := except_map_ok.1 (hmap.symm.trans hr)
  rw [after, hrestated]
  exact ⟨_, ⟨_, hr, rfl, rfl, rfl⟩, rfl, rfl, rfl⟩

/-- A statement that fails has no row, and neither has what stands behind it. -/
theorem after_of_fails {statement : Text} {e : Error} (rest : BatchReport)
    (hfails : (restate settings tablePrefix statement).outcome = .error e) :
    (after statement (restateStatement settings statement) rest).rows = [] ∧
      (after statement (restateStatement settings statement) rest).outcome = .error e := by
  rw [restate_outcome] at hfails
  rw [after, except_map_error.1 hfails]
  exact ⟨rfl, rfl⟩

/-- Statements that are restated stand in front of the report on the others with a row each, and
with as many queries as these tell. -/
theorem exists_rows_append (more : List Text)
    (hbefore : ∀ statement ∈ before, ∃ r,
      (restate settings tablePrefix statement).outcome = .ok r) :
    ∃ (rows : List BatchRow) (queries : List Query),
      List.Forall₂ (fun statement row => row.Records settings tablePrefix statement) before rows ∧
      (rows.map BatchRow.queries).sum = queries.length ∧
      (ofStatements settings (before ++ more)).rows = rows ++ (ofStatements settings more).rows ∧
      (ofStatements settings (before ++ more)).outcome =
        (ofStatements settings more).outcome.map (queries ++ ·) := by
  induction before with
  | nil =>
      refine ⟨[], [], .nil, rfl, rfl, ?_⟩
      rw [List.nil_append]
      cases (ofStatements settings more).outcome with
      | error e => rfl
      | ok queries => rfl
  | cons statement before ih =>
      obtain ⟨⟨r, hr⟩, hbefore⟩ := List.forall_mem_cons.1 hbefore
      obtain ⟨rows, queries, hrecords, hsum, hrows, houtcome⟩ := ih hbefore
      obtain ⟨row, hrow, hlength, hfirst, hqueries⟩ :=
        exists_row_of_after (ofStatements settings (before ++ more)) hr
      refine ⟨row :: rows, r.queries ++ queries, .cons hrow hrecords, ?_, ?_, ?_⟩
      · rw [List.map_cons, List.sum_cons, hsum, hlength, List.length_append]
      · exact hfirst.trans (congrArg _ hrows)
      · refine hqueries.trans ?_
        rw [houtcome]
        cases (ofStatements settings more).outcome with
        | error e => rfl
        | ok others => exact congrArg Except.ok (List.append_assoc _ _ _).symm

/-- A batch that is restated has a row for each of its statements. -/
theorem records_of_ofBatch (tablePrefix : Text)
    (h : (ofBatch settings batch).outcome = .ok queries) :
    ∃ statements, splitStatements batch = .ok statements ∧
      List.Forall₂ (fun statement row => row.Records settings tablePrefix statement) statements
        (ofBatch settings batch).rows ∧
      ((ofBatch settings batch).rows.map BatchRow.queries).sum = queries.length := by
  obtain ⟨statements, results, hsplit, hresults, -⟩ := restated_of_ofBatch tablePrefix h
  have hall : ∀ statement ∈ statements, ∃ r,
      (restate settings tablePrefix statement).outcome = .ok r :=
    ((List.forall₂_and_left statements results).1
      (hresults.imp fun statement r hr => ⟨⟨r, hr⟩, hr⟩)).1
  obtain ⟨rows, queries', hrecords, hsum, hrows, houtcome⟩ := exists_rows_append [] hall
  have hbatch : ofBatch settings batch = ofStatements settings (statements ++ []) := by
    rw [ofBatch, hsplit, List.append_nil]
  rw [hbatch] at h ⊢
  obtain rfl : queries' ++ [] = queries := Except.ok.inj (houtcome.symm.trans h)
  rw [hrows, ofStatements, List.append_nil, List.append_nil]
  exact ⟨statements, hsplit, hrecords, hsum⟩

/-- A batch that is not restated has a row for each statement before the first that fails. -/
theorem records_of_failing {failing : Text} {more : List Text} {e : Error}
    (hsplit : splitStatements batch = .ok (before ++ failing :: more))
    (hbefore : ∀ statement ∈ before, ∃ r, (restate settings tablePrefix statement).outcome = .ok r)
    (hfails : (restate settings tablePrefix failing).outcome = .error e) :
    (ofBatch settings batch).outcome = .error e ∧
      List.Forall₂ (fun statement row => row.Records settings tablePrefix statement) before
        (ofBatch settings batch).rows := by
  have hbatch : ofBatch settings batch = ofStatements settings (before ++ failing :: more) := by
    rw [ofBatch, hsplit]
  obtain ⟨rows, queries, hrecords, -, hrows, houtcome⟩ :=
    exists_rows_append (failing :: more) hbefore
  obtain ⟨hnone, herror⟩ := after_of_fails (ofStatements settings more) hfails
  rw [hbatch, houtcome, hrows, ofStatements, hnone, herror, List.append_nil]
  exact ⟨rfl, hrecords⟩

end BatchReport

end Rows

namespace Summary

/-- Lines that tell of each kind among some rows how many rows are of it and how many queries these
have, in the order of the names of kinds. -/
structure Tallies (rows : List BatchRow) (lines : List (StatementKind × Nat × Nat)) : Prop where
  ascending : (lines.map fun line => line.1.label).Pairwise (· < ·)
  kinds : ∀ kind, kind ∈ lines.map Prod.fst ↔ ∃ row ∈ rows, row.kind = kind
  counted : ∀ line ∈ lines, line.2.1 = rows.countP (·.kind == line.1) ∧
    line.2.2 = ((rows.filter (·.kind == line.1)).map BatchRow.queries).sum

theorem mem_kindsByName (kind : StatementKind) : kind ∈ kindsByName := by
  cases kind <;> decide

theorem kindsByName_ascending : (kindsByName.map StatementKind.label).Pairwise (· < ·) := by
  decide +kernel

theorem mem_counts_iff {rows : List BatchRow} {kind : StatementKind} {statements queries : Nat} :
    (kind, statements, queries) ∈ counts rows ↔ (∃ row ∈ rows, row.kind = kind) ∧
      statements = rows.countP (·.kind == kind) ∧
      queries = ((rows.filter (·.kind == kind)).map BatchRow.queries).sum := by
  have hcount : (ofKind rows kind).length = rows.countP (·.kind == kind) :=
    List.countP_eq_length_filter.symm
  have hqueries : BatchReport.queryCount (ofKind rows kind) =
      ((rows.filter (·.kind == kind)).map BatchRow.queries).sum :=
    List.sum_eq_foldl.symm
  have hoccurs : rows.countP (·.kind == kind) ≠ 0 ↔ ∃ row ∈ rows, row.kind = kind := by
    rw [← Nat.pos_iff_ne_zero, List.countP_pos_iff]
    simp only [beq_iff_eq]
  unfold counts
  rw [List.mem_filter, List.mem_map, ← hoccurs]
  dsimp only
  constructor
  · rintro ⟨⟨kind, -, ⟨⟩⟩, hstatements⟩
    rw [bne_iff_ne, hcount] at hstatements
    exact ⟨hstatements, hcount, hqueries⟩
  · rintro ⟨hoccurs, rfl, rfl⟩
    exact ⟨⟨kind, mem_kindsByName kind, by rw [hcount, hqueries]⟩, bne_iff_ne.2 hoccurs⟩

theorem counts_tallies (rows : List BatchRow) : Tallies rows (counts rows) where
  ascending := by
    have hlabels : ((kindsByName.map fun kind => (kind, (ofKind rows kind).length,
        BatchReport.queryCount (ofKind rows kind))).map fun line => line.1.label) =
          kindsByName.map StatementKind.label :=
      List.map_map
    refine kindsByName_ascending.sublist ?_
    rw [← hlabels]
    exact List.filter_sublist.map _
  kinds kind := by
    rw [List.mem_map]
    constructor
    · rintro ⟨line, hline, rfl⟩
      exact (mem_counts_iff.1 hline).1
    · intro hrow
      exact ⟨_, mem_counts_iff.2 ⟨hrow, rfl, rfl⟩, rfl⟩
  counted line hline := (mem_counts_iff.1 hline).2

/-- Weights of rows, added up for each of some kinds that all of them are of, are all weights. -/
theorem sum_weights_ofKind {rows : List BatchRow} {kinds : List StatementKind}
    (hnodup : kinds.Nodup) (hkinds : ∀ row ∈ rows, row.kind ∈ kinds) (weight : BatchRow → Nat) :
    (kinds.map fun kind => ((rows.filter (·.kind == kind)).map weight).sum).sum =
      (rows.map weight).sum := by
  induction rows with
  | nil => simp
  | cons row rows ih =>
      obtain ⟨hrow, hrest⟩ := List.forall_mem_cons.1 hkinds
      have hcons : ∀ kind ∈ kinds, (((row :: rows).filter (·.kind == kind)).map weight).sum =
          (if row.kind = kind then weight row else 0) +
            ((rows.filter (·.kind == kind)).map weight).sum := by
        intro kind _
        by_cases hkind : row.kind = kind
        · simp [hkind]
        · simp [hkind]
      -- the first row is of one kind, which is there once
      have honce : (kinds.map fun kind => if row.kind = kind then weight row else 0).sum =
          weight row := by
        rw [List.sum_map_eq_nsmul_single row.kind _ fun kind hkind _ => if_neg (Ne.symm hkind),
          List.count_eq_one_of_mem hnodup hrow, if_pos rfl, one_nsmul]
      rw [List.map_congr_left hcons, List.sum_map_add, honce, ih hrest, List.map_cons,
        List.sum_cons]

namespace Tallies

variable {rows : List BatchRow} {lines : List (StatementKind × Nat × Nat)}

theorem nodup (h : Tallies rows lines) : (lines.map Prod.fst).Nodup := by
  refine List.pairwise_map.2 ((List.pairwise_map.1 h.ascending).imp ?_)
  intro line later hlt heq
  rw [heq] at hlt
  exact List.lt_irrefl _ hlt

/-- A number that is told of each kind, and is the sum of the weights of its rows, tells of all rows
together. -/
theorem sum_column (h : Tallies rows lines) {column : StatementKind × Nat × Nat → Nat}
    {weight : BatchRow → Nat}
    (hcolumn : ∀ line ∈ lines,
      column line = ((rows.filter (·.kind == line.1)).map weight).sum) :
    (lines.map column).sum = (rows.map weight).sum := by
  have hkinds : ∀ row ∈ rows, row.kind ∈ lines.map Prod.fst :=
    fun row hrow => (h.kinds row.kind).2 ⟨row, hrow, rfl⟩
  rw [← sum_weights_ofKind h.nodup hkinds weight, List.map_map]
  exact congrArg List.sum (List.map_congr_left hcolumn)

theorem sum_statements (h : Tallies rows lines) : (lines.map (·.2.1)).sum = rows.length := by
  have hcolumn : ∀ line ∈ lines,
      line.2.1 = ((rows.filter (·.kind == line.1)).map fun _ => 1).sum := by
    intro line hline
    rw [(h.counted line hline).1, List.countP_eq_length_filter]
    simp
  rw [h.sum_column hcolumn]
  simp

theorem sum_queries (h : Tallies rows lines) :
    (lines.map (·.2.2)).sum = (rows.map BatchRow.queries).sum :=
  h.sum_column fun line hline => (h.counted line hline).2

end Tallies

end Summary

/-- The books of an installer add up. Whatever it kept before, a batch leaves the rows of its own
report. If the batch is restated, these are one for each statement in order, tell of as many queries
as there are, and are summed up in one line for each kind, by the names of kinds, with numbers that
add up to those of all rows and of all queries. If it is not, they are those of the statements
before the first that fails, and none if the batch is not made of tokens. -/
theorem BatchReport.ofBatch_addsUp (settings : Settings) (tablePrefix batch : Text) :
    (∀ ledger : Ledger, ledger.take settings batch =
      ((ofBatch settings batch).outcome, ⟨(ofBatch settings batch).rows⟩)) ∧
    (∀ queries, (ofBatch settings batch).outcome = .ok queries →
      (∃ statements, splitStatements batch = .ok statements ∧
        List.Forall₂ (fun statement row => row.Records settings tablePrefix statement) statements
          (ofBatch settings batch).rows) ∧
      ((ofBatch settings batch).rows.map BatchRow.queries).sum = queries.length ∧
      ∃ lines, (Summary.table (ofBatch settings batch).rows).rows =
          lines.map (fun (kind, statements, queries) =>
            [kind.label, Text.numeral statements, Text.numeral queries]) ∧
        Summary.Tallies (ofBatch settings batch).rows lines ∧
        (lines.map (·.2.1)).sum = (ofBatch settings batch).rows.length ∧
        (lines.map (·.2.2)).sum = queries.length) ∧
    (∀ before failing after e, splitStatements batch = .ok (before ++ failing :: after) →
      (∀ statement ∈ before, ∃ r, (restate settings tablePrefix statement).outcome = .ok r) →
      (restate settings tablePrefix failing).outcome = .error e →
      (ofBatch settings batch).outcome = .error e ∧
      List.Forall₂ (fun statement row => row.Records settings tablePrefix statement) before
        (ofBatch settings batch).rows) ∧
    (∀ e, tokenize batch = .error e →
      (ofBatch settings batch).outcome = .error e ∧ (ofBatch settings batch).rows = []) := by
  refine ⟨Ledger.take_eq settings batch, fun queries h => ?_,
    fun before failing after e => records_of_failing, fun e htokens => ?_⟩
  · obtain ⟨statements, hsplit, hrecords, hsum⟩ := records_of_ofBatch tablePrefix h
    have htallies := Summary.counts_tallies (ofBatch settings batch).rows
    exact ⟨⟨statements, hsplit, hrecords⟩, hsum, Summary.counts _, rfl, htallies,
      htallies.sum_statements, htallies.sum_queries.trans hsum⟩
  · rw [ofBatch, splitStatements_error.2 htokens]
    exact ⟨rfl, rfl⟩

/-- Three statements of two kinds, one of which is restated as two queries. -/
def keyedBatch : Text :=
  "SET NAMES utf8mb4; CREATE TABLE t (a int, KEY k (a)); CREATE TABLE u (b int)"

/-- A batch whose second statement is of no kind. -/
def misspeltBatch : Text :=
  "SET NAMES utf8mb4; SELEC 1; CREATE TABLE u (b int)"

/-- Three statements make four queries, and two lines of the summary. A misspelt batch leaves the
one row of its first statement in place of them, and a batch with an open literal leaves none. -/
theorem BatchReport.ofBatch_addsUp_keyed :
    ∃ settings queries e, Settings.load .builtIn = .ok settings ∧
      (ofBatch settings keyedBatch).outcome = .ok queries ∧ queries.length = 4 ∧
      ((ofBatch settings keyedBatch).rows.map BatchRow.queries).sum = 4 ∧
      Summary.counts (ofBatch settings keyedBatch).rows =
        [(.createTable, 2, 3), (.ignorable, 1, 1)] ∧
      (⟨(ofBatch settings keyedBatch).rows⟩ : Ledger).take settings misspeltBatch =
        (.error e, ⟨(ofBatch settings misspeltBatch).rows⟩) ∧
      List.Forall₂ (fun statement row => row.Records settings [] statement)
        ["SET NAMES utf8mb4".toList] (ofBatch settings misspeltBatch).rows ∧
      (ofBatch settings "SELECT 'a").rows = [] := by
  obtain ⟨settings, hload, h⟩ := exists_of_passes (show passes (fun settings =>
      passes (fun queries => decide (queries.length = 4)) (ofBatch settings keyedBatch).outcome &&
      decide (Summary.counts (ofBatch settings keyedBatch).rows =
        [(.createTable, 2, 3), (.ignorable, 1, 1)]) &&
      passes (fun _ => true) (restate settings [] "SET NAMES utf8mb4").outcome &&
      failsBy (.unsupported (.unsupportedStatement ["SELEC"]) (some "SELEC 1"))
        (restate settings [] "SELEC 1").outcome)
      (Settings.load .builtIn) = true by decide +kernel)
  obtain ⟨h, hfails⟩ := Bool.and_eq_true_iff.1 h
  obtain ⟨h, hfirst⟩ := Bool.and_eq_true_iff.1 h
  obtain ⟨hqueries, hcounts⟩ := Bool.and_eq_true_iff.1 h
  obtain ⟨queries, hqueries, hlength⟩ := exists_of_passes hqueries
  obtain ⟨r, hfirst, -⟩ := exists_of_passes hfirst
  have hlength : queries.length = 4 := of_decide_eq_true hlength
  have hsplit : splitStatements misspeltBatch = .ok (["SET NAMES utf8mb4".toList] ++
      "SELEC 1".toList :: ["CREATE TABLE u (b int)".toList]) := by
    decide +kernel
  have hopen : tokenize "SELECT 'a" = .error (.lexical .unterminatedString 7 "SELECT 'a") := by
    decide +kernel
  obtain ⟨-, hkeyed, -, -⟩ := ofBatch_addsUp settings [] keyedBatch
  obtain ⟨htaken, -, hbroken, -⟩ := ofBatch_addsUp settings [] misspeltBatch
  obtain ⟨-, -, -, hnone⟩ := ofBatch_addsUp settings [] "SELECT 'a"
  obtain ⟨houtcome, hrecords⟩ := hbroken _ _ _ _ hsplit
    (List.forall_mem_singleton.2 ⟨r, hfirst⟩) (eq_error_of_failsBy hfails)
  exact ⟨settings, queries, _, hload, hqueries, hlength,
    (hkeyed queries hqueries).2.1.trans hlength, of_decide_eq_true hcounts,
    (htaken _).trans (congrArg (Prod.mk · _) houtcome), hrecords, (hnone _ hopen).2⟩

end Restate
