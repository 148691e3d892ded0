import Restate.Proofs.Schema.Clauses

/-!
# Fields of a column

Each field of a column is what the last clause says that sets it, whatever stands between. Main
statement: `Reading.column_clauses`.
-/

namespace Restate

section Fields

variable {name sourceType targetType : Text} {clauses clauses' : List ColumnClause}

/-- A field of a column that clauses set. -/
inductive ColumnField where
  | nullable
  | default
  | autoIncrement
  | primaryKey
  | unique
  deriving DecidableEq

namespace ColumnClause

/-- The field a clause sets, if it sets one. -/
def field? : ColumnClause → Option ColumnField
  | .nullable _ => some .nullable
  | .default _ => some .default
  | .autoIncrement => some .autoIncrement
  | .primaryKey => some .primaryKey
  | .unique => some .unique
  | .omitted => none

def nullable? : ColumnClause → Option Bool
  | .nullable allowed => some allowed
  | _ => none

def default? : ColumnClause → Option Text
  | .default value => some value
  | _ => none

end ColumnClause

/-- Of the clauses that set a field, both lists hold the same in the same order. Those that set
different fields may be in any order, and those that set none do not count. -/
def SetAlike (clauses clauses' : List ColumnClause) : Prop :=
  ∀ field, clauses.filter (·.field? == some field) = clauses'.filter (·.field? == some field)

/-- The column of which each field is what the last clause says that sets it. -/
def Column.ofClauses (name sourceType targetType : Text) (clauses : List ColumnClause) :
    Column where
  name := name
  sourceType := sourceType
  targetType := targetType
  nullable := (clauses.filterMap ColumnClause.nullable?).getLast?
  default := (clauses.filterMap ColumnClause.default?).getLast?
  autoIncrement := clauses.contains .autoIncrement
  primaryKey := clauses.contains .primaryKey
  unique := clauses.contains .unique

/-- One more clause takes the place of what was said before. -/
theorem Column.ofClauses_concat (clause : ColumnClause) :
    ofClauses name sourceType targetType (clauses ++ [clause]) =
      (ofClauses name sourceType targetType clauses).set clause := by
  cases clause with
  | nullable | default | autoIncrement | primaryKey | unique | omitted =>
      simp [ofClauses, set, ColumnClause.nullable?, ColumnClause.default?]

theorem Column.foldl_set_bare (clauses : List ColumnClause) :
    clauses.foldl Column.set (Column.bare name sourceType targetType) =
      ofClauses name sourceType targetType clauses := by
  induction clauses using List.reverseRecOn with
  | nil => rfl
  | append_singleton clauses clause ih =>
      rw [List.foldl_concat, ih, ofClauses_concat]

theorem SetAlike.filterMap_eq {β : Type} (h : SetAlike clauses clauses') (field : ColumnField)
    {f : ColumnClause → Option β} (hf : ∀ clause, clause.field? ≠ some field → f clause = none) :
    clauses.filterMap f = clauses'.filterMap f := by
  have hfilter : ∀ clauses : List ColumnClause,
      (clauses.filter (·.field? == some field)).filterMap f = clauses.filterMap f := by
    intro clauses
    rw [List.filterMap_filter]
    congr 1
    funext clause
    by_cases hclause : clause.field? = some field
    · simp [hclause]
    · simp [hclause, hf clause hclause]
  rw [← hfilter clauses, h field, hfilter]

theorem SetAlike.contains_eq (h : SetAlike clauses clauses') (clause : ColumnClause)
    {field : ColumnField} (hclause : clause.field? = some field) :
    clauses.contains clause = clauses'.contains clause := by
  have hfilter : ∀ clauses : List ColumnClause,
      clause ∈ clauses.filter (·.field? == some field) ↔ clauses.contains clause = true := by
    intro clauses
    simp [hclause]
  rw [Bool.eq_iff_iff, ← hfilter, h field, hfilter]

/-- The order of clauses that set different fields does not count. -/
theorem SetAlike.ofClauses_eq (h : SetAlike clauses clauses') :
    Column.ofClauses name sourceType targetType clauses =
      Column.ofClauses name sourceType targetType clauses' := by
  have hnullable : clauses.filterMap ColumnClause.nullable? =
      clauses'.filterMap ColumnClause.nullable? := by
    refine h.filterMap_eq .nullable fun clause hclause => ?_
    cases clause with
    | nullable allowed => exact (hclause rfl).elim
    | default | autoIncrement | primaryKey | unique | omitted => rfl
  have hdefault : clauses.filterMap ColumnClause.default? =
      clauses'.filterMap ColumnClause.default? := by
    refine h.filterMap_eq .default fun clause hclause => ?_
    cases clause with
    | default value => exact (hclause rfl).elim
    | nullable | autoIncrement | primaryKey | unique | omitted => rfl
  simp only [Column.ofClauses, hnullable, hdefault, h.contains_eq .autoIncrement rfl,
    h.contains_eq .primaryKey rfl, h.contains_eq .unique rfl]

end Fields

section Columns

variable {types : Fields Text} {base target : Text} {named : Token} {type : List Token}
  {clauses : List ColumnClause} {pieces : List (List Token)}

/-- The type as it is written in the statement. -/
def writtenType (sql : Text) (type : List Token) : Text :=
  match type.head?, type.getLast? with
  | some first, some last => (sql.drop first.start).take (last.stop - first.start)
  | _, _ => []

theorem Reading.column_ofClauses (sql : Text) (hnamed : named.isName) (htype : IsType base type)
    (htarget : mapType types base = .ok target) (hclauses : WritesClauses clauses pieces) :
    (Reading.column types sql).run (named :: (type ++ pieces.flatten)) =
      .ok (Column.ofClauses named.value (writtenType sql type) target clauses) := by
  have hlast : Unterminated (named :: (type ++ pieces.flatten)) := by
    refine .cons ?_ (.append htype.unterminated (unterminated_flatten hclauses.clauses))
    rcases hnamed with hquoted | hbare
    · exact .one (by simp [hquoted])
    · exact .bare hbare
  obtain ⟨first, last, hfirst, hfinal, htyped⟩ :=
    Yields.typed htype htarget fun t ht => (exists_head_flatten hclauses.clauses ht).1
  obtain ⟨said, hsaid, hfold⟩ :=
    Yields.gather_clauses named.value hclauses.clauses hclauses.apart
  have hwritten : writtenType sql type = (sql.drop first.start).take (last.stop - first.start) := by
    rw [writtenType, hfirst, hfinal]
  have hcolumn : Column.ofClauses named.value (writtenType sql type) target clauses =
      said.foldl Column.set (Column.bare named.value
        ((sql.drop first.start).take (last.stop - first.start)) target) := by
    rw [hfold, Column.foldl_set_bare, hwritten]
  have hspan : Yields (Reading.columnType types) type ⟨target, first, last⟩
      (pieces.flatten ++ []) := by
    rw [List.append_nil]
    exact htyped
  refine Yields.run ?_
  rw [hlast.withoutSemicolon_eq, hcolumn]
  exact Yields.cons (Yields.identifier hnamed)
    (Yields.bind hspan (Yields.last hsaid (Yields.pure _)))

/-- A column is read with what the last clause says for each of its fields. Comments, character sets
and rules for updates change none of them, arguments and modifiers of the type no more than how it
was written, and clauses that set different fields may be in any order. -/
theorem Reading.column_clauses (sql : Text) (hnamed : named.isName) (htype : IsType base type)
    (htarget : mapType types base = .ok target) (hclauses : WritesClauses clauses pieces) :
    (Reading.column types sql).run (named :: (type ++ pieces.flatten)) =
        .ok (Column.ofClauses named.value (writtenType sql type) target clauses) ∧
      ∀ sql' type' clauses' pieces', IsType base type' → WritesClauses clauses' pieces' →
        SetAlike clauses' clauses →
        (Reading.column types sql').run (named :: (type' ++ pieces'.flatten)) =
          .ok { Column.ofClauses named.value (writtenType sql type) target clauses with
            sourceType := writtenType sql' type' } := by
  refine ⟨column_ofClauses sql hnamed htype htarget hclauses, ?_⟩
  intro sql' type' clauses' pieces' htype' hclauses' halike
  rw [column_ofClauses sql' hnamed htype' htarget hclauses', halike.ofClauses_eq]
  rfl

/-- The arguments of the type, a comment, and the order of two clauses do not count. -/
theorem Reading.column_clauses_reordered :
    (Reading.column [("int", "integer")] "a int(9) NOT NULL DEFAULT 5").run
      [⟨.identifier, "a", 0, 1⟩, ⟨.identifier, "int", 2, 5⟩, ⟨.punctuation, "(", 5, 6⟩,
        ⟨.number, "9", 6, 7⟩, ⟨.punctuation, ")", 7, 8⟩, ⟨.keyword, "NOT", 9, 12⟩,
        ⟨.keyword, "NULL", 13, 17⟩, ⟨.keyword, "DEFAULT", 18, 25⟩, ⟨.number, "5", 26, 27⟩] =
      .ok ⟨"a", "int(9)", "integer", some false, some "5", false, false, false⟩ ∧
    (Reading.column [("int", "integer")] "a int DEFAULT 5 COMMENT 'n' NOT NULL").run
      [⟨.identifier, "a", 0, 1⟩, ⟨.identifier, "int", 2, 5⟩, ⟨.keyword, "DEFAULT", 6, 13⟩,
        ⟨.number, "5", 14, 15⟩, ⟨.keyword, "COMMENT", 16, 23⟩, ⟨.string, "'n'", 24, 27⟩,
        ⟨.keyword, "NOT", 28, 31⟩, ⟨.keyword, "NULL", 32, 36⟩] =
      .ok ⟨"a", "int", "integer", some false, some "5", false, false, false⟩ := by
  have hdefault : ∀ start stop, IsDefault "5" [⟨.number, "5", start, stop⟩] :=
    fun start stop => .number (t := ⟨.number, "5", start, stop⟩) rfl
  have hclauses : WritesClauses [.nullable false, .default "5"]
      [[⟨.keyword, "NOT", 9, 12⟩, ⟨.keyword, "NULL", 13, 17⟩],
        [⟨.keyword, "DEFAULT", 18, 25⟩, ⟨.number, "5", 26, 27⟩]] :=
    ⟨.cons (.notNull (by decide) (by decide)) (.cons (.default (by decide) (hdefault _ _)) .nil),
      by simp [IsBare]⟩
  have hclauses' : WritesClauses [.default "5", .omitted, .nullable false]
      [[⟨.keyword, "DEFAULT", 6, 13⟩, ⟨.number, "5", 14, 15⟩],
        [⟨.keyword, "COMMENT", 16, 23⟩, ⟨.string, "'n'", 24, 27⟩],
        [⟨.keyword, "NOT", 28, 31⟩, ⟨.keyword, "NULL", 32, 36⟩]] :=
    ⟨.cons (.default (by decide) (hdefault _ _)) (.cons (.comment (by decide) rfl)
      (.cons (.notNull (by decide) (by decide)) .nil)), by simp [IsBare]⟩
  have harguments : IsArguments
      [⟨.punctuation, "(", 5, 6⟩, ⟨.number, "9", 6, 7⟩, ⟨.punctuation, ")", 7, 8⟩] :=
    .inr ⟨[⟨.number, "9", 6, 7⟩], _, _, rfl, rfl, rfl, .token rfl rfl .nil⟩
  have htype : ∀ arguments, IsArguments arguments →
      IsType "int" (⟨.identifier, "int", 2, 5⟩ :: (arguments ++ [])) := fun arguments h =>
    .word (t := ⟨.identifier, "int", 2, 5⟩) rfl h (by simp)
  have halike : SetAlike [.default "5", .omitted, .nullable false]
      [.nullable false, .default "5"] := by
    intro field
    cases field with
    | nullable | default | autoIncrement | primaryKey | unique => decide
  exact ⟨(Reading.column_clauses _ (.inr rfl) (htype _ harguments) rfl hclauses).1,
    (Reading.column_clauses "a int(9) NOT NULL DEFAULT 5" (.inr rfl) (htype _ harguments) rfl
      hclauses).2 _ _ _ _ (htype [] (.inl rfl)) hclauses' halike⟩

end Columns

end Restate
