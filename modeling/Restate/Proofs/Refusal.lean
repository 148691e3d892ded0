import Restate.Proofs.Restatement

/-!
# Refusals

Most of what goes wrong is that a construct is refused. Such an error does not know the statement,
and is tied to it by whoever called for the step that failed: then it accounts for the statement
(`Error.IsRefusal.accounts`). An outcome made in steps only refuses if each of its steps does.
-/

namespace Restate

namespace Error

/-- The error refuses a construct and does not say of which statement. -/
def IsRefusal (e : Error) : Prop :=
  ∃ cause, e = .refuse cause

/-- The statement an error carries. -/
def statement? : Error → Option Text
  | .lexical _ _ statement => some statement
  | .unsupported _ statement => statement
  | _ => none

/-- The error is reported as one about a statement, and carries the whole of it. -/
def Accounts (sql : Text) (e : Error) : Prop :=
  e.isReported = true ∧ e.statement? = some sql

theorem IsRefusal.accounts {e : Error} (h : e.IsRefusal) (sql : Text) :
    (e.about sql).Accounts sql := by
  obtain ⟨cause, rfl⟩ := h
  exact ⟨rfl, rfl⟩

theorem IsRefusal.not_accounts {e : Error} (h : e.IsRefusal) (sql : Text) : ¬ e.Accounts sql := by
  obtain ⟨cause, rfl⟩ := h
  rintro ⟨-, hstatement⟩
  cases hstatement

theorem isReported_about (sql : Text) (e : Error) : (e.about sql).isReported = e.isReported := by
  cases e with
  | unsupported cause statement =>
      cases statement with
      | none => rfl
      | some statement => rfl
  | lexical | numeral | loneSemicolon | formatNotText | replacementNotText => rfl

theorem not_accounts_of_not_reported {e : Error} {sql : Text} (h : e.isReported = false) :
    ¬ e.Accounts sql := by
  rintro ⟨hreported, -⟩
  simp [h] at hreported

theorem isRefusal_refuse (cause : Unsupported) : (refuse cause).IsRefusal :=
  ⟨cause, rfl⟩

end Error

/-- The kinds of statements on schemas. -/
def StatementKind.onSchema : List StatementKind :=
  [.createTable, .createIndex, .alterAddColumn, .alterAddKey, .alterAddUniqueKey, .dropIndex]

variable {α β : Type}

/-- If the outcome is an error, it refuses a construct. -/
def Refusing (x : Except Error α) : Prop :=
  ∀ e, x = .error e → e.IsRefusal

theorem except_bind_error {x : Except Error α} {f : α → Except Error β} {e : Error} :
    x >>= f = .error e ↔ x = .error e ∨ ∃ a, x = .ok a ∧ f a = .error e := by
  cases x with
  | error e' =>
      change Except.error e' = .error e ↔ _
      simp
  | ok a =>
      change f a = .error e ↔ _
      simp

theorem except_map_error {x : Except Error α} {f : α → β} {e : Error} :
    x.map f = .error e ↔ x = .error e := by
  cases x with
  | error e' => simp [Except.map]
  | ok a => simp [Except.map]

theorem mapError_error {x : Except Error α} {f : Error → Error} {e : Error} :
    x.mapError f = .error e ↔ ∃ e', x = .error e' ∧ f e' = e := by
  cases x with
  | error e' =>
      change Except.error (f e') = .error e ↔ _
      simp
  | ok a => exact iff_of_false nofun fun ⟨_, h, _⟩ => nomatch h

theorem Report.bind_error {x : Report α} {f : α → Report β} {e : Error} :
    (x >>= f).outcome = .error e ↔
      x.outcome = .error e ∨ ∃ a, x.outcome = .ok a ∧ (f a).outcome = .error e := by
  cases hx : x.outcome with
  | error e' => simp [bind, hx]
  | ok a => simp [bind, hx]

namespace Refusing

theorem ok (a : α) : Refusing (.ok a) := by
  rintro e ⟨⟩

theorem refuse (cause : Unsupported) : Refusing (.error (.refuse cause) : Except Error α) := by
  rintro e ⟨⟩
  exact Error.isRefusal_refuse cause

theorem ite {p : Prop} [Decidable p] {x y : Except Error α} (hx : Refusing x)
    (hy : Refusing y) : Refusing (if p then x else y) := by
  split
  · exact hx
  · exact hy

theorem bind {x : Except Error α} {f : α → Except Error β} (hx : Refusing x)
    (hf : ∀ a, x = .ok a → Refusing (f a)) : Refusing (x >>= f) := by
  intro e he
  rcases except_bind_error.1 he with he | ⟨a, ha, he⟩
  · exact hx e he
  · exact hf a ha e he

theorem map {x : Except Error α} (hx : Refusing x) (f : α → β) : Refusing (x.map f) :=
  fun e he => hx e (except_map_error.1 he)

theorem report_bind {x : Report α} {f : α → Report β} (hx : Refusing x.outcome)
    (hf : ∀ a, x.outcome = .ok a → Refusing (f a).outcome) : Refusing (x >>= f).outcome := by
  intro e he
  rcases Report.bind_error.1 he with he | ⟨a, ha, he⟩
  · exact hx e he
  · exact hf a ha e he

theorem mapM {f : α → Except Error β} (hf : ∀ a, Refusing (f a)) (l : List α) :
    Refusing (l.mapM f) := by
  induction l with
  | nil => exact ok []
  | cons a l ih =>
      rw [List.mapM_cons]
      exact (hf a).bind fun b _ => ih.bind fun bs _ => ok (b :: bs)

end Refusing

namespace StatementKind

variable {tokens : List Token}

theorem afterDefiner_refusing : Refusing (afterDefiner tokens) := by
  unfold afterDefiner
  split
  · split
    · dsimp only
      split
      · exact .ok _
      · exact .ok _
    · exact .refuse _
  · exact .refuse _

theorem decidingWords_refusing : Refusing (decidingWords tokens) := by
  unfold decidingWords
  exact .ite (afterDefiner_refusing.map _) (.ok _)

theorem ofAddition_refusing (target : Token) : Refusing (ofAddition target) := by
  unfold ofAddition
  exact .ite (.ok _) <| .ite (.ok _) <| .ite (.ok _) <| .ite (.ok _) <| .ite (.refuse _) (.ok _)

theorem ofAlter_refusing : Refusing (ofAlter tokens) := by
  unfold ofAlter
  split
  · refine .ite (.refuse _) (.ite (.refuse _) ?_)
    split
    · exact .ite (ofAddition_refusing _) (.ite (.ok _) (.refuse _))
    · exact .refuse _
  · exact .refuse _

/-- A statement of no known kind is refused. -/
theorem classify_refusing : Refusing (classify tokens) := by
  unfold classify ofSignificant
  split
  · exact .refuse _
  · split
    · refine decidingWords_refusing.bind fun words _ => ?_
      split
      · exact .ok _
      · exact .ite ofAlter_refusing (.refuse _)
    · exact .refuse _

end StatementKind

section Steps

variable {settings : Settings} {sql tablePrefix : Text} {tokens : List Token}
  {kind : StatementKind} {e : Error}

theorem readStatement_error :
    readStatement sql = .error e ↔ tokenize sql = .error e ∨ ∃ tokens e',
      tokenize sql = .ok tokens ∧ StatementKind.classify tokens = .error e' ∧ e'.about sql = e := by
  unfold readStatement
  rw [except_bind_error]
  simp only [except_bind_error, mapError_error, reduceCtorEq, and_false, exists_false, or_false,
    exists_and_left, pure, Except.pure]

theorem restate_error :
    (restate settings tablePrefix sql).outcome = .error e ↔
      readStatement sql = .error e ∨ ∃ kind tokens, readStatement sql = .ok (kind, tokens) ∧
        (queriesOfKind settings kind sql tokens).outcome = .error e := by
  unfold restate restateStatement
  simp only [Report.bind_error, Report.ofExcept, pure, reduceCtorEq, and_false, exists_false,
    or_false, Prod.exists]

theorem rowQuery_error :
    rowQuery settings kind sql tokens = .error e ↔
      Parameter.extract settings.placeholderStem.inserted tokens = .error e ∨ ∃ bound e',
        Parameter.extract settings.placeholderStem.inserted tokens = .ok bound ∧
        restateRows settings.functions kind bound.tokens = .error e' ∧ e'.about sql = e := by
  unfold rowQuery
  simp only [except_bind_error, mapError_error, reduceCtorEq, and_false, exists_false, or_false,
    exists_and_left, pure, Except.pure]

theorem queriesOfKind_error :
    (queriesOfKind settings kind sql tokens).outcome = .error e ↔
      kind ∈ StatementKind.onRows ∧ rowQuery settings kind sql tokens = .error e ∨
        kind ∈ StatementKind.onSchema ∧ ∃ e',
          (restateSchemaTokens settings.types kind sql (significant tokens)).outcome = .error e' ∧
          e'.about sql = e := by
  cases kind with
  | transaction => simp [queriesOfKind, StatementKind.onRows, StatementKind.onSchema, pure]
  | ignorable | alterAddFulltextKey =>
      simp [queriesOfKind, Report.bind_error, Report.notes, StatementKind.onRows,
        StatementKind.onSchema, pure]
  | select | insert | update | delete | dropTable =>
      rw [queriesOfKind_rows (by decide), except_map_error]
      simp [StatementKind.onRows, StatementKind.onSchema]
  | createTable | createIndex | alterAddColumn | alterAddKey | alterAddUniqueKey | dropIndex =>
      simp [queriesOfKind, Report.bind_error, restateSchema, Report.about, mapError_error,
        StatementKind.onRows, StatementKind.onSchema, pure]

theorem queriesOfKind_eq_schema (hschema : kind ∈ StatementKind.onSchema) :
    queriesOfKind settings kind sql tokens =
      (do
        return (← restateSchema settings.types kind sql tokens).map Query.plain :
          Report (List Query)) := by
  revert hschema
  cases kind <;> simp [StatementKind.onSchema, queriesOfKind]

/-- The queries of a statement on schemas, from its significant tokens. -/
theorem queriesOfKind_schema (hschema : kind ∈ StatementKind.onSchema) :
    (queriesOfKind settings kind sql tokens).outcome =
      ((restateSchemaTokens settings.types kind sql (significant tokens)).outcome.mapError
        (Error.about sql)).map (List.map Query.plain) := by
  rw [queriesOfKind_eq_schema hschema, restateSchema]
  cases houtcome :
      (restateSchemaTokens settings.types kind sql (significant tokens)).outcome with
  | error e =>
      simp only [bind, Report.about, houtcome]
      rfl
  | ok statements =>
      simp only [bind, Report.about, houtcome]
      rfl

/-- What becomes of a statement on schemas. -/
theorem restate_of_schema (tablePrefix : Text) (htokens : tokenize sql = .ok tokens)
    (hkind : StatementKind.classify tokens = .ok kind) (hschema : kind ∈ StatementKind.onSchema) :
    (restate settings tablePrefix sql).outcome =
      ((restateSchemaTokens settings.types kind sql (significant tokens)).outcome.mapError
        (Error.about sql)).map fun statements =>
          ⟨statements.map Query.plain, some kind, tablePrefix⟩ := by
  rw [restate_of_kind tablePrefix htokens hkind, queriesOfKind_schema hschema]
  cases (restateSchemaTokens settings.types kind sql (significant tokens)).outcome with
  | error e => rfl
  | ok statements => rfl

/-- Restating a statement on schemas gives the notices that reading its tokens does. -/
theorem restate_notices_of_schema (tablePrefix : Text) (htokens : tokenize sql = .ok tokens)
    (hkind : StatementKind.classify tokens = .ok kind) (hschema : kind ∈ StatementKind.onSchema) :
    (restate settings tablePrefix sql).notices =
      (restateSchemaTokens settings.types kind sql (significant tokens)).notices := by
  have hread := readStatement_ok.2 ⟨htokens, hkind⟩
  simp only [restate, restateStatement, Report.ofExcept, hread, queriesOfKind_eq_schema hschema,
    restateSchema, bind, pure, Report.about]
  cases (restateSchemaTokens settings.types kind sql (significant tokens)).outcome with
  | error e => exact List.nil_append _
  | ok statements =>
      change [] ++ ((restateSchemaTokens settings.types kind sql (significant tokens)).notices ++ []
        ++ []) ++ [] = _
      simp only [List.nil_append, List.append_nil]

end Steps

end Restate
