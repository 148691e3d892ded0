import Restate.Restatement

/-!
# Restatements that succeed

A report, or an outcome, that is made in steps succeeds just if each of them does. So a statement is
restated just if it is made of tokens, its kind is known, and the queries for that kind are found
(`restate_ok_iff`).
-/

namespace Restate

variable {α β : Type}

theorem except_bind_ok {x : Except Error α} {f : α → Except Error β} {b : β} :
    x >>= f = .ok b ↔ ∃ a, x = .ok a ∧ f a = .ok b := by
  cases x with
  | error e =>
      refine iff_of_false (fun h => ?_) (by simp)
      cases h
  | ok a => simp [bind, Except.bind]

theorem mapError_ok {x : Except Error α} {f : Error → Error} {a : α} :
    x.mapError f = .ok a ↔ x = .ok a := by
  cases x with
  | error e =>
      constructor
      · intro h
        cases h
      · intro h
        cases h
  | ok a' => exact Iff.rfl

theorem except_map_ok {x : Except Error α} {f : α → β} {b : β} :
    x.map f = .ok b ↔ ∃ a, x = .ok a ∧ f a = b := by
  cases x with
  | error e => simp [Except.map]
  | ok a => simp [Except.map]

/-- Whether an outcome is a success that passes a test. -/
def passes {ε : Type} (test : α → Bool) : Except ε α → Bool
  | .ok a => test a
  | .error _ => false

theorem exists_of_passes {ε : Type} {test : α → Bool} {x : Except ε α} (h : passes test x = true) :
    ∃ a, x = .ok a ∧ test a = true := by
  cases x with
  | error e => simp [passes] at h
  | ok a => exact ⟨a, rfl, h⟩

/-- Whether an outcome is the error. -/
def failsBy (e : Error) : Except Error α → Bool
  | .ok _ => false
  | .error e' => e' == e

theorem eq_error_of_failsBy {e : Error} {x : Except Error α}
    (h : failsBy e x = true) : x = .error e := by
  cases x with
  | ok a => simp [failsBy] at h
  | error e' => rw [eq_of_beq h]

namespace Report

theorem bind_ok {x : Report α} {f : α → Report β} {b : β} :
    (x >>= f).outcome = .ok b ↔ ∃ a, x.outcome = .ok a ∧ (f a).outcome = .ok b := by
  cases hx : x.outcome with
  | error e => simp [bind, hx]
  | ok a => simp [bind, hx]

/-- A report made in two steps has the notices of both. -/
theorem bind_eq {x : Report α} {f : α → Report β} {b : β} {notices : List Notice}
    (h : x >>= f = ⟨notices, .ok b⟩) :
    ∃ a before after, x = ⟨before, .ok a⟩ ∧ f a = ⟨after, .ok b⟩ ∧ notices = before ++ after := by
  obtain ⟨before, outcome⟩ := x
  cases outcome with
  | error e => cases h
  | ok a =>
      obtain ⟨rfl, hb⟩ := Report.mk.inj h
      exact ⟨a, before, (f a).notices, rfl, by rw [← hb], rfl⟩

theorem ofExcept_eq {x : Except Error α} {a : α} {notices : List Notice}
    (h : ofExcept x = ⟨notices, .ok a⟩) : x = .ok a ∧ notices = [] := by
  cases h
  exact ⟨rfl, rfl⟩

theorem pure_eq {a b : α} {notices : List Notice} (h : (pure a : Report α) = ⟨notices, .ok b⟩) :
    b = a ∧ notices = [] := by
  cases h
  exact ⟨rfl, rfl⟩

theorem notes_eq {own notices : List Notice} {u : Unit} (h : notes own = ⟨notices, .ok u⟩) :
    notices = own := by
  cases h
  rfl

theorem about_eq {x : Report α} {statement : Text} {a : α} {notices : List Notice}
    (h : x.about statement = ⟨notices, .ok a⟩) : x = ⟨notices, .ok a⟩ := by
  obtain ⟨own, outcome⟩ := x
  obtain ⟨rfl, houtcome⟩ := Report.mk.inj h
  obtain rfl := mapError_ok.1 houtcome
  rfl

theorem pure_ok {a b : α} : (pure a : Report α).outcome = .ok b ↔ a = b := by
  change (Except.ok a : Except Error α) = .ok b ↔ a = b
  simp

end Report

/-- The kinds of statements that are restated token by token. -/
def StatementKind.onRows : List StatementKind :=
  [.select, .insert, .update, .delete, .dropTable]

/-- The tokens of a statement, and its kind. -/
theorem readStatement_ok {sql : Text} {kind : StatementKind} {tokens : List Token} :
    readStatement sql = .ok (kind, tokens) ↔
      tokenize sql = .ok tokens ∧ StatementKind.classify tokens = .ok kind := by
  unfold readStatement
  rw [except_bind_ok]
  constructor
  · rintro ⟨tokens', htokens, h⟩
    obtain ⟨kind', hkind, h⟩ := except_bind_ok.1 h
    cases h
    exact ⟨htokens, mapError_ok.1 hkind⟩
  · rintro ⟨htokens, hkind⟩
    refine ⟨tokens, htokens, except_bind_ok.2 ⟨kind, mapError_ok.2 hkind, rfl⟩⟩

/-- What restating a statement takes, and what it gives. -/
theorem restateStatement_ok_iff {settings : Settings} {sql : Text} {kind : StatementKind}
    {queries : List Query} :
    (restateStatement settings sql).outcome = .ok (kind, queries) ↔
      ∃ tokens, tokenize sql = .ok tokens ∧ StatementKind.classify tokens = .ok kind ∧
        (queriesOfKind settings kind sql tokens).outcome = .ok queries := by
  unfold restateStatement
  rw [Report.bind_ok]
  constructor
  · rintro ⟨⟨kind', tokens⟩, hread, h⟩
    obtain ⟨queries', hqueries, h⟩ := Report.bind_ok.1 h
    cases Report.pure_ok.1 h
    obtain ⟨htokens, hkind⟩ := readStatement_ok.1 hread
    exact ⟨tokens, htokens, hkind, hqueries⟩
  · rintro ⟨tokens, htokens, hkind, hqueries⟩
    exact ⟨(kind, tokens), readStatement_ok.2 ⟨htokens, hkind⟩,
      Report.bind_ok.2 ⟨queries, hqueries, Report.pure_ok.2 rfl⟩⟩

/-- What restating a statement takes, and what it gives. -/
theorem restate_ok_iff {settings : Settings} {tablePrefix sql : Text} {r : Restatement} :
    (restate settings tablePrefix sql).outcome = .ok r ↔
      ∃ tokens kind queries, tokenize sql = .ok tokens ∧ StatementKind.classify tokens = .ok kind ∧
        (queriesOfKind settings kind sql tokens).outcome = .ok queries ∧
        r = ⟨queries, some kind, tablePrefix⟩ := by
  unfold restate
  rw [Report.bind_ok]
  constructor
  · rintro ⟨⟨kind, queries⟩, hstatement, h⟩
    obtain ⟨tokens, htokens, hkind, hqueries⟩ := restateStatement_ok_iff.1 hstatement
    exact ⟨tokens, kind, queries, htokens, hkind, hqueries, (Report.pure_ok.1 h).symm⟩
  · rintro ⟨tokens, kind, queries, htokens, hkind, hqueries, rfl⟩
    exact ⟨(kind, queries), restateStatement_ok_iff.2 ⟨tokens, htokens, hkind, hqueries⟩,
      Report.pure_ok.2 rfl⟩

/-- A statement whose kind is known is restated as its kind says. -/
theorem restate_of_kind {settings : Settings} {sql : Text} {tokens : List Token}
    {kind : StatementKind} (tablePrefix : Text) (htokens : tokenize sql = .ok tokens)
    (hkind : StatementKind.classify tokens = .ok kind) :
    (restate settings tablePrefix sql).outcome =
      (queriesOfKind settings kind sql tokens).outcome.map
        fun queries => ⟨queries, some kind, tablePrefix⟩ := by
  cases houtcome : (queriesOfKind settings kind sql tokens).outcome with
  | ok queries =>
      exact restate_ok_iff.2 ⟨tokens, kind, queries, htokens, hkind, houtcome, rfl⟩
  | error e =>
      have hread := readStatement_ok.2 ⟨htokens, hkind⟩
      simp only [restate, restateStatement, Report.ofExcept, hread, bind, houtcome, Except.map]

/-- The query of a statement on rows, as its restatement. -/
theorem queriesOfKind_rows {settings : Settings} {sql : Text} {tokens : List Token}
    {kind : StatementKind} (hrow : kind ∈ StatementKind.onRows) :
    (queriesOfKind settings kind sql tokens).outcome =
      (rowQuery settings kind sql tokens).map fun query => [query] := by
  have hreport : queriesOfKind settings kind sql tokens =
      (do
        return [← Report.ofExcept (rowQuery settings kind sql tokens)] : Report (List Query)) := by
    revert hrow
    cases kind <;> simp [StatementKind.onRows, queriesOfKind]
  rw [hreport]
  cases rowQuery settings kind sql tokens with
  | error e => rfl
  | ok query => rfl

/-- A literal that cannot be bound is the cause. -/
theorem rowQuery_of_unbound {settings : Settings} {sql : Text} {tokens : List Token}
    {kind : StatementKind} {e : Error}
    (h : Parameter.extract settings.placeholderStem.inserted tokens = .error e) :
    rowQuery settings kind sql tokens = .error e := by
  unfold rowQuery
  rw [h]
  rfl

/-- Once its literals are bound, the query of a statement on rows is its text with the
parameters. -/
theorem rowQuery_of_bound {settings : Settings} {sql : Text} {tokens : List Token}
    {kind : StatementKind} {bound : Parameter.Bound}
    (h : Parameter.extract settings.placeholderStem.inserted tokens = .ok bound) :
    rowQuery settings kind sql tokens =
      ((restateRows settings.functions kind bound.tokens).mapError (Error.about sql)).map
        fun text => ⟨.sql text, bound.params⟩ := by
  unfold rowQuery
  rw [h]
  change (do
    let text ← (restateRows settings.functions kind bound.tokens).mapError (Error.about sql)
    return ⟨.sql text, bound.params⟩ : Except Error Query) = _
  cases restateRows settings.functions kind bound.tokens with
  | error e => rfl
  | ok text => rfl

/-- The steps from a statement on rows to its query. -/
theorem restate_rows_ok {settings : Settings} {tablePrefix sql : Text} {r : Restatement}
    {kind : StatementKind} (hrestate : (restate settings tablePrefix sql).outcome = .ok r)
    (hkind : r.kind = some kind) (hrow : kind ∈ StatementKind.onRows) :
    ∃ tokens bound text, tokenize sql = .ok tokens ∧
      Parameter.extract settings.placeholderStem.inserted tokens = .ok bound ∧
      restateTokens settings.functions (orIgnore kind bound.tokens) = .ok text ∧
      r.queries = [⟨.sql text, bound.params⟩] := by
  obtain ⟨tokens, kind', queries, htokens, -, hqueries, rfl⟩ := restate_ok_iff.1 hrestate
  obtain rfl : kind' = kind := Option.some.inj hkind
  rw [queriesOfKind_rows hrow] at hqueries
  obtain ⟨query, hquery, rfl⟩ := except_map_ok.1 hqueries
  obtain ⟨bound, hbound, h⟩ := except_bind_ok.1 hquery
  obtain ⟨text, htext, h⟩ := except_bind_ok.1 h
  cases h
  refine ⟨tokens, bound, text, htokens, hbound, ?_, rfl⟩
  have hrows := mapError_ok.1 htext
  unfold restateRows at hrows
  split at hrows
  · simp at hrows
  · exact hrows

end Restate
