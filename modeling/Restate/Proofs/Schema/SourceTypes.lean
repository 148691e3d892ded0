import Restate.Proofs.Schema.Definitions

/-!
# Types as they were written

A column keeps its type as it was written, and this is all of a new table that is cut out of the
text of the statement. Main statement: what becomes of a new table depends on the tokens alone
(`Table.restate_sourced`).
-/

namespace Restate

namespace Report

variable {α β γ δ : Type} {g : α → γ} {h : β → δ} {x y : Report α}

/-- The reports have the same notices, and they fail alike or yield what agrees in what counts. -/
def Agrees (g : α → γ) (x y : Report α) : Prop :=
  x.notices = y.notices ∧ x.outcome.map g = y.outcome.map g

theorem Agrees.bind {F G : α → Report β} (hx : Agrees g x y)
    (hF : ∀ a b, g a = g b → Agrees h (F a) (G b)) : Agrees h (x >>= F) (y >>= G) := by
  obtain ⟨notices, outcome⟩ := x
  obtain ⟨notices', outcome'⟩ := y
  obtain ⟨hnotices, houtcome⟩ := hx
  obtain rfl : notices = notices' := hnotices
  cases outcome with
  | error e =>
      cases outcome' with
      | error e' =>
          obtain rfl : e = e' := Except.error.inj houtcome
          exact ⟨rfl, rfl⟩
      | ok b => simp [Except.map] at houtcome
  | ok a =>
      cases outcome' with
      | error e' => simp [Except.map] at houtcome
      | ok b =>
          obtain ⟨hbehind, hyields⟩ := hF a b (Except.ok.inj houtcome)
          exact ⟨congrArg (notices ++ ·) hbehind, hyields⟩

theorem Agrees.eq (hx : Agrees id x y) : x = y := by
  obtain ⟨notices, outcome⟩ := x
  obtain ⟨notices', outcome'⟩ := y
  obtain ⟨hnotices, houtcome⟩ := hx
  rw [Except.map_id] at houtcome
  exact congrArg₂ Report.mk hnotices houtcome

end Report

/-- The column without its type as it was written. -/
def Column.unsourced (column : Column) : Column :=
  { column with sourceType := [] }

def Definition.unsourced : Definition → Definition
  | .column c => .column c.unsourced
  | definition => definition

def Table.unsourced (table : Table) : Table :=
  { table with columns := table.columns.map Column.unsourced }

theorem Column.unsourced_foldl_set (clauses : List ColumnClause) (column : Column) :
    (clauses.foldl Column.set column).unsourced = clauses.foldl Column.set column.unsourced := by
  induction clauses generalizing column with
  | nil => rfl
  | cons clause clauses ih =>
      rw [List.foldl_cons, List.foldl_cons, ih]
      cases clause with
      | nullable | default | autoIncrement | primaryKey | unique | omitted => rfl

namespace Reading

variable {α β γ : Type}

/-- What is done behind a reading may be exchanged if the results agree in what counts. -/
theorem map_bind_congr {g : β → γ} {x : Reading α} {f f' : α → Reading β}
    (h : ∀ a c, (f a c).1.map g = (f' a c).1.map g) (c : Cursor) :
    ((x >>= f) c).1.map g = ((x >>= f') c).1.map g := by
  simp only [bind]
  cases x c with
  | mk outcome middle =>
      cases outcome with
      | ok a => exact h a middle
      | error e => rfl

theorem accept_congr {g : α → γ} {words : List Text} {x y y' : Reading α}
    (h : ∀ c, (y c).1.map g = (y' c).1.map g) (c : Cursor) :
    ((do if (← acceptWord words).isSome then x else y) c).1.map g =
      ((do if (← acceptWord words).isSome then x else y') c).1.map g := by
  refine map_bind_congr (fun o c => ?_) c
  split
  · rfl
  · exact h c

variable {types : Fields Text}

theorem column_unsourced (sql sql' : Text) (c : Cursor) :
    (Reading.column types sql c).1.map Column.unsourced =
      (Reading.column types sql' c).1.map Column.unsourced := by
  refine map_bind_congr (fun name c => map_bind_congr (fun span c =>
    map_bind_congr (fun clauses c => ?_) c) c) c
  change Except.ok (Column.unsourced _) = Except.ok (Column.unsourced _)
  rw [Column.unsourced_foldl_set, Column.unsourced_foldl_set]
  rfl

theorem columnDefinition_unsourced (sql sql' : Text) (c : Cursor) :
    (columnDefinition types sql c).1.map Definition.unsourced =
      (columnDefinition types sql' c).1.map Definition.unsourced := by
  refine map_bind_congr (fun d c => ?_) c
  cases d.next? with
  | none => rfl
  | some t =>
      dsimp only
      split
      · rfl
      · split
        · rfl
        · have hread : ∀ sql, ((do return .column (← Reading.column types sql) :
              Reading Definition) c).1.map Definition.unsourced =
                ((Reading.column types sql c).1.map Column.unsourced).map Definition.column := by
            intro sql
            simp only [bind, pure]
            cases Reading.column types sql c with
            | mk outcome last =>
                cases outcome with
                | ok column => rfl
                | error e => rfl
          rw [hread, hread, column_unsourced sql sql']

theorem definition_unsourced (sql sql' table : Text) (c : Cursor) :
    (Reading.definition types sql table c).1.map Definition.unsourced =
      (Reading.definition types sql' table c).1.map Definition.unsourced := by
  unfold Reading.definition
  refine map_bind_congr (fun o c => ?_) c
  dsimp only
  split
  · refine map_bind_congr (fun u c => ?_) c
    exact accept_congr (accept_congr (accept_congr (columnDefinition_unsourced sql sql'))) c
  · exact accept_congr (accept_congr (accept_congr (columnDefinition_unsourced sql sql'))) c

end Reading

namespace Table

variable {types : Fields Text}

theorem notice?_unsourced (table : Text) (definition : Definition) :
    definition.unsourced.notice? table = definition.notice? table := by
  cases definition with
  | column | primaryKey | key | dropped => rfl

theorem readDefinitions_cons_eq (types : Fields Text) (sql table : Text) {part : List Token}
    (hpart : part ≠ []) (parts : List (List Token)) :
    readDefinitions types sql table (part :: parts) = (do
      let definition ← Report.ofExcept ((Reading.definition types sql table).run part)
      Report.notes (definition.notice? table).toList
      let definitions ← readDefinitions types sql table parts
      return definition :: definitions) := by
  rw [readDefinitions, if_neg (by simpa using hpart)]
  congr 1
  funext definition
  cases definition with
  | dropped word => rfl
  | column | primaryKey | key => rfl

/-- The text that types are cut out of makes no other difference. -/
theorem readDefinitions_sourced (sql sql' table : Text) (parts : List (List Token)) :
    (readDefinitions types sql table parts).Agrees (List.map Definition.unsourced)
      (readDefinitions types sql' table parts) := by
  induction parts with
  | nil => exact ⟨rfl, rfl⟩
  | cons part parts ih =>
      by_cases hpart : part = []
      · subst hpart
        exact ⟨rfl, rfl⟩
      · have hfirst : (Report.ofExcept ((Reading.definition types sql table).run part)).Agrees
            Definition.unsourced
            (Report.ofExcept ((Reading.definition types sql' table).run part)) :=
          ⟨rfl, Reading.definition_unsourced sql sql' table (Cursor.ofTokens part)⟩
        rw [readDefinitions_cons_eq types sql table hpart,
          readDefinitions_cons_eq types sql' table hpart]
        refine hfirst.bind fun definition definition' hsame => ?_
        rw [← notice?_unsourced, hsame, notice?_unsourced]
        refine Report.Agrees.bind (g := id) ⟨rfl, rfl⟩ fun _ _ _ =>
          ih.bind fun more more' hmore => ⟨rfl, ?_⟩
        change Except.ok (_ :: _) = Except.ok (_ :: _)
        rw [hsame, hmore]

theorem readDefinitions_unsourced {sql sql' table : Text} {parts : List (List Token)}
    {definitions definitions' : List Definition} {notices notices' : List Notice}
    (h : readDefinitions types sql table parts = ⟨notices, .ok definitions⟩)
    (h' : readDefinitions types sql' table parts = ⟨notices', .ok definitions'⟩) :
    definitions.map Definition.unsourced = definitions'.map Definition.unsourced := by
  obtain ⟨-, hsame⟩ : (readDefinitions types sql table parts).Agrees
    (List.map Definition.unsourced) (readDefinitions types sql' table parts) :=
      readDefinitions_sourced sql sql' table parts
  rw [h, h'] at hsame
  exact Except.ok.inj hsame

theorem column?_unsourced (columns : List Column) (name : Text) :
    column? (columns.map Column.unsourced) name = (column? columns name).map Column.unsourced := by
  unfold column?
  rw [← List.map_reverse, List.find?_map]
  rfl

theorem primaryKeyOf_unsourced (table : Text) (columns : List Column) (clauses : List Text) :
    primaryKeyOf table (columns.map Column.unsourced) clauses =
      primaryKeyOf table columns clauses := by
  have hinline : ((columns.map Column.unsourced).filter Column.primaryKey).map Column.name =
      (columns.filter Column.primaryKey).map Column.name := by
    rw [List.filter_map, List.map_map]
    rfl
  have hknown : ∀ name, (column? (columns.map Column.unsourced) name).isNone =
      (column? columns name).isNone := by
    intro name
    rw [column?_unsourced, Option.isNone_map]
  unfold primaryKeyOf
  simp only [hinline, hknown]

theorem ofDefinitions_unsourced (head : TableHead) (definitions : List Definition) :
    ofDefinitions head (definitions.map Definition.unsourced) =
      (ofDefinitions head definitions).map Table.unsourced := by
  have hcolumns : (definitions.map Definition.unsourced).filterMap Definition.column? =
      (definitions.filterMap Definition.column?).map Column.unsourced := by
    rw [List.filterMap_map, List.map_filterMap]
    congr 1
    funext definition
    cases definition with
    | column | primaryKey | key | dropped => rfl
  have hkeys : (definitions.map Definition.unsourced).filterMap Definition.key? =
      definitions.filterMap Definition.key? := by
    rw [List.filterMap_map]
    congr 1
    funext definition
    cases definition with
    | column | primaryKey | key | dropped => rfl
  have hnames : (definitions.map Definition.unsourced).flatMap Definition.primaryNames =
      definitions.flatMap Definition.primaryNames := by
    rw [List.flatMap_map]
    congr 1
    funext definition
    cases definition with
    | column | primaryKey | key | dropped => rfl
  unfold ofDefinitions
  simp only [hcolumns, hkeys, hnames, List.isEmpty_map, primaryKeyOf_unsourced]
  split
  · rfl
  · cases primaryKeyOf head.name (definitions.filterMap Definition.column?)
      (definitions.flatMap Definition.primaryNames) with
    | error e => rfl
    | ok names => rfl

theorem numbered?_unsourced (table : Table) : table.unsourced.numbered? = table.numbered? := by
  unfold numbered? unsourced
  dsimp only
  split
  · rw [column?_unsourced]
    cases column? table.columns _ with
    | none => rfl
    | some column => rfl
  · rfl

theorem statements_unsourced (table : Table) : table.unsourced.statements = table.statements := by
  have hlines : table.unsourced.lines = table.lines := by
    unfold lines isNumbered
    rw [numbered?_unsourced]
    simp only [unsourced, List.map_map]
    rfl
  unfold statements render
  rw [hlines]
  rfl

theorem numberingNotices_unsourced (table : Table) :
    table.unsourced.numberingNotices = table.numberingNotices := by
  unfold numberingNotices isNumbered
  rw [numbered?_unsourced]
  simp only [unsourced, List.filter_map, List.map_map]
  rfl

/-- The statements for a table do not depend on the text that its definitions are cut out of. -/
theorem statements_of_tokens {sql sql' : Text} {head : TableHead} {parts : List (List Token)}
    {definitions definitions' : List Definition} {notices notices' : List Notice}
    {table table' : Table}
    (h : readDefinitions types sql head.name parts = ⟨notices, .ok definitions⟩)
    (h' : readDefinitions types sql' head.name parts = ⟨notices', .ok definitions'⟩)
    (htable : ofDefinitions head definitions = .ok table)
    (htable' : ofDefinitions head definitions' = .ok table') :
    table.statements = table'.statements := by
  have hunsourced := ofDefinitions_unsourced head definitions
  rw [readDefinitions_unsourced h h', ofDefinitions_unsourced, htable, htable'] at hunsourced
  rw [← statements_unsourced, ← statements_unsourced table', Except.ok.inj hunsourced]

/-- The statements for a new table, once its definitions were read. -/
def finish (head : TableHead) (definitions : List Definition) : Report (List Text) := do
  let table ← Report.ofExcept (ofDefinitions head definitions)
  Report.notes table.numberingNotices
  return table.statements

theorem restate_eq_finish (types : Fields Text) (sql : Text) (tokens : List Token) :
    restate types sql tokens = (do
      let head ← Report.ofExcept (Reading.tableHead.run tokens)
      let definitions ← readDefinitions types sql head.name (splitTopLevel "," head.body)
      finish head definitions) :=
  rfl

theorem finish_unsourced (head : TableHead) (definitions : List Definition) :
    finish head (definitions.map Definition.unsourced) = finish head definitions := by
  unfold finish
  rw [ofDefinitions_unsourced]
  cases ofDefinitions head definitions with
  | error e => rfl
  | ok table =>
      simp only [Except.map, Report.ofExcept, bind, numberingNotices_unsourced,
        statements_unsourced]

/-- What becomes of a new table depends on the tokens of the statement alone. -/
theorem restate_sourced (sql sql' : Text) (tokens : List Token) :
    restate types sql tokens = restate types sql' tokens := by
  rw [restate_eq_finish, restate_eq_finish]
  congr 1
  funext head
  refine ((readDefinitions_sourced sql sql' head.name _).bind fun definitions definitions' h =>
    ?_).eq
  rw [← finish_unsourced, h, finish_unsourced]
  exact ⟨rfl, rfl⟩

end Table

end Restate
