import Restate.Proofs.Refusal
import Restate.Proofs.Respaced
import Restate.Proofs.Rows.Blindness
import Restate.Proofs.Schema.Moves
import Restate.Proofs.Schema.SourceTypes

/-!
# White space in statements on schemas

Tables and indexes are written anew from what was read of them, and of the offsets of a statement
only that tokens touch was read. So white space and comments may be changed anywhere, if they stay
where tokens were apart: the queries are the same, and so are the notices and the cause of a
failure. Main statement: `restate_respaced`.
-/

namespace Restate

/-- The kinds of statements on schemas that are written anew from what was read of them. -/
def StatementKind.rebuilt : List StatementKind :=
  [.createTable, .createIndex, .alterAddKey, .alterAddUniqueKey, .dropIndex]

variable {types : Fields Text} {sql sql' : Text} {f : Nat → Nat}

namespace Table

theorem readDefinitions_moved (hf : StrictMono f) (table : Text) (parts : List (List Token)) :
    readDefinitions types [] table (parts.map (List.map (Token.moved f))) =
      readDefinitions types [] table parts := by
  induction parts with
  | nil => rfl
  | cons part parts ih =>
      have hrun := (Reading.stays_definition hf types table).run part
      simp only [List.map_cons, readDefinitions, List.isEmpty_map, hrun, ih]

theorem restate_moved (hf : StrictMono f) (tokens : List Token) :
    restate types [] (tokens.map (Token.moved f)) = restate types [] tokens := by
  rw [restate_eq_finish, restate_eq_finish, Reading.moves_tableHead.run]
  cases Reading.tableHead.run tokens with
  | error e => rfl
  | ok head =>
      have hdefinitions : readDefinitions types [] head.name
          (splitTopLevel "," (head.body.map (Token.moved f))) =
            readDefinitions types [] head.name (splitTopLevel "," head.body) := by
        rw [splitTopLevel_moved, readDefinitions_moved hf]
      simp only [Except.map, TableHead.moved, Report.ofExcept, bind, hdefinitions]
      rfl

end Table

/-- What is written anew depends on the tokens as far as a strictly increasing move of all offsets
leaves them alone. -/
theorem restateSchemaTokens_moved {kind : StatementKind} (hkind : kind ∈ StatementKind.rebuilt)
    (hf : StrictMono f) (sql sql' : Text) (tokens : List Token) :
    restateSchemaTokens types kind sql (tokens.map (Token.moved f)) =
      restateSchemaTokens types kind sql' tokens := by
  have hadded := (Reading.stays_addedKey (f := f)).run tokens
  have hcreated := (Reading.stays_createdIndex (f := f)).run tokens
  have hdropped := (Reading.stays_droppedIndex (f := f)).run tokens
  revert hkind
  cases kind with
  | createTable =>
      intro _
      exact (Table.restate_sourced sql [] _).trans
        ((Table.restate_moved hf tokens).trans (Table.restate_sourced [] sql' tokens))
  | createIndex =>
      intro _
      simp only [restateSchemaTokens, hcreated]
  | alterAddKey | alterAddUniqueKey =>
      intro _
      simp only [restateSchemaTokens, hadded]
  | dropIndex =>
      intro _
      simp only [restateSchemaTokens, hdropped]
  | _ =>
      intro hkind
      simp [StatementKind.rebuilt] at hkind

/-- White space and comments make no difference to a statement that is written anew, if the same
tokens touch: it becomes the same queries with the same notices, or it fails for the same cause. -/
theorem restate_respaced (settings : Settings) (tablePrefix : Text) {ts us : List Token}
    {kind : StatementKind} (htokens : tokenize sql = .ok ts) (htokens' : tokenize sql' = .ok us)
    (hrespaced : Respaced (significant ts) (significant us))
    (hkind : StatementKind.classify ts = .ok kind) (hrebuilt : kind ∈ StatementKind.rebuilt) :
    (restate settings tablePrefix sql).notices = (restate settings tablePrefix sql').notices ∧
      ((∃ r, (restate settings tablePrefix sql).outcome = .ok r ∧
          (restate settings tablePrefix sql').outcome = .ok r) ∨
        ∃ e e', (restate settings tablePrefix sql).outcome = .error e ∧
          (restate settings tablePrefix sql').outcome = .error e' ∧ e.cause = e'.cause) := by
  obtain ⟨f, g, hf, hg, hmoved⟩ :=
    hrespaced.exists_moved (ordered_significant htokens) (ordered_significant htokens')
  have hkind' : StatementKind.classify us = .ok kind := by
    rw [StatementKind.classify, ← StatementKind.ofSignificant_moved g, ← hmoved,
      StatementKind.ofSignificant_moved f]
    exact hkind
  have hsame : restateSchemaTokens settings.types kind sql (significant ts) =
      restateSchemaTokens settings.types kind sql' (significant us) := by
    rw [← restateSchemaTokens_moved hrebuilt hf sql sql, hmoved,
      restateSchemaTokens_moved hrebuilt hg sql sql']
  have hschema : kind ∈ StatementKind.onSchema := by
    revert hrebuilt
    cases kind <;> simp [StatementKind.rebuilt, StatementKind.onSchema]
  rw [restate_notices_of_schema tablePrefix htokens hkind hschema,
    restate_notices_of_schema tablePrefix htokens' hkind' hschema,
    restate_of_schema tablePrefix htokens hkind hschema,
    restate_of_schema tablePrefix htokens' hkind' hschema, hsame]
  refine ⟨rfl, ?_⟩
  cases (restateSchemaTokens settings.types kind sql' (significant us)).outcome with
  | error e =>
      refine .inr ⟨e.about sql, e.about sql', rfl, rfl, ?_⟩
      rw [Error.cause_about, Error.cause_about]
  | ok statements => exact .inl ⟨_, rfl, rfl⟩

/-- A comment may fill any gap, also in a default that is written out. -/
theorem restate_respaced_default :
    ∃ settings ts us r, Settings.load .builtIn = .ok settings ∧
      tokenize "CREATE TABLE t (a int DEFAULT (1 +2))" = .ok ts ∧
      tokenize "CREATE TABLE t/**/(a int DEFAULT\n(1 /**/+2)) -- t" = .ok us ∧
      Respaced (significant ts) (significant us) ∧
      (restate settings [] "CREATE TABLE t (a int DEFAULT (1 +2))").outcome = .ok r ∧
      (restate settings [] "CREATE TABLE t/**/(a int DEFAULT\n(1 /**/+2)) -- t").outcome =
        .ok r := by
  obtain ⟨settings, hload, hok⟩ := exists_of_passes (show passes (fun settings =>
      passes (fun _ => true)
        (restate settings [] "CREATE TABLE t (a int DEFAULT (1 +2))").outcome)
      (Settings.load .builtIn) = true by decide +kernel)
  obtain ⟨ts, htokens, h⟩ := exists_of_passes (show passes (fun ts =>
      passes (· == .createTable) (StatementKind.classify ts)
        && passes (fun us => decide (Respaced (significant ts) (significant us)))
          (tokenize "CREATE TABLE t/**/(a int DEFAULT\n(1 /**/+2)) -- t"))
      (tokenize "CREATE TABLE t (a int DEFAULT (1 +2))") = true by decide +kernel)
  obtain ⟨hkind, h⟩ := Bool.and_eq_true_iff.1 h
  obtain ⟨kind, hkind, hcreate⟩ := exists_of_passes hkind
  obtain rfl := eq_of_beq hcreate
  obtain ⟨us, htokens', hrespaced⟩ := exists_of_passes h
  have hrespaced := of_decide_eq_true hrespaced
  rcases (restate_respaced settings [] htokens htokens' hrespaced hkind (by decide)).2 with
    ⟨r, hr, hr'⟩ | ⟨e, -, he, -⟩
  · exact ⟨settings, ts, us, r, hload, htokens, htokens', hrespaced, hr, hr'⟩
  · rw [he] at hok
    simp [passes] at hok

end Restate
