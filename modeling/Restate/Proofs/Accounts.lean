import Restate.Proofs.Lexing.Digits
import Restate.Proofs.Rows.Nesting
import Restate.Proofs.Schema.Meaningless

/-!
# Errors that account for their statement

Whoever restates a batch reports the errors that are about a statement, and tells from each which
statement it is about. Main statement: an error is such a report except in three cases that can be
told from the statement (`restate_accounts_iff`).
-/

namespace Restate

/-- The statement fails without an error that accounts for it. -/
inductive Unaccounted (settings : Settings) (sql : Text) : Prop where
  /-- A digit sign without a value stands where a number begins. -/
  | digit {tokens : List Token} {rest : Text} : Lexes false sql tokens rest →
      opensValueless (tokens.foldl Token.nameAfter false) rest = true →
      Unaccounted settings sql
  /-- It is a statement on rows whose literals cannot be bound. -/
  | literal {tokens : List Token} {kind : StatementKind} : tokenize sql = .ok tokens →
      StatementKind.classify tokens = .ok kind → kind ∈ StatementKind.onRows →
      Unbindable tokens → Unaccounted settings sql
  /-- It creates a table and comes to a definition without a meaning. -/
  | definition {tokens : List Token} {head : TableHead} : tokenize sql = .ok tokens →
      StatementKind.classify tokens = .ok .createTable →
      Reading.tableHead.run (significant tokens) = .ok head →
      Table.ComesToMeaningless settings.types sql head.name (splitTopLevel "," head.body) →
      Unaccounted settings sql

variable {settings : Settings} {sql tablePrefix : Text} {tokens : List Token}
  {kind : StatementKind} {e : Error}

/-- What the lexer finds fault with is reported unless it is a digit without a value. -/
theorem accounts_of_tokenize (h : tokenize sql = .error e) :
    e.Accounts sql ∨ ∃ p, e = .lexical .digitWithoutValue p sql := by
  have hcovers := tokenize_covers sql
  rw [h] at hcovers
  obtain ⟨fault, p, rfl, -⟩ := hcovers
  cases fault with
  | digitWithoutValue => exact .inr ⟨p, rfl⟩
  | unterminatedComment | unterminatedIdentifier | unterminatedString | badHexadecimal | badNumber
  | badExponent | strayCharacter => exact .inl ⟨rfl, rfl⟩

/-- Where the rules of calls hold text, a statement with its literals bound is restated or
refused. -/
theorem restateRows_refusing {functions : Fields FunctionRule}
    (hrules : ∀ name rule, functions.get? name = some rule → rule.holdsText = true)
    (kind : StatementKind) (tokens : List Token) :
    Refusing (restateRows functions kind tokens) := by
  unfold restateRows
  split
  · exact .refuse _
  · intro e he
    rcases restateFrom_openCall hrules none (orIgnore kind tokens) with
      ⟨-, herror⟩ | ⟨-, text, htext⟩
    · obtain rfl : Error.refuse .unbalancedParentheses = e :=
        Except.error.inj (herror.symm.trans he)
      exact Error.isRefusal_refuse _
    · cases htext.symm.trans he

/-- What a statement in one of the three cases fails with does not account for it. -/
theorem Unaccounted.exists_error (h : Unaccounted settings sql) (tablePrefix : Text) :
    ∃ e, (restate settings tablePrefix sql).outcome = .error e ∧ ¬ e.Accounts sql := by
  cases h with
  | digit hlexes hopens =>
      obtain ⟨p, hp⟩ := tokenize_valueless_iff.2 ⟨_, _, hlexes, hopens⟩
      exact ⟨_, restate_error.2 (.inl (readStatement_error.2 (.inl hp))),
        Error.not_accounts_of_not_reported rfl⟩
  | @literal tokens kind htokens hkind hrow hunbindable =>
      obtain ⟨e, he⟩ :=
        (Parameter.extract_error_iff settings.placeholderStem.inserted).2 hunbindable
      have hrefusal : e.IsRefusal := Parameter.bindFrom_refusing e he
      have hqueries : (queriesOfKind settings kind sql tokens).outcome = .error e :=
        queriesOfKind_error.2 (.inl ⟨hrow, rowQuery_error.2 (.inl he)⟩)
      exact ⟨e, restate_error.2 (.inr ⟨_, _, readStatement_ok.2 ⟨htokens, hkind⟩, hqueries⟩),
        hrefusal.not_accounts sql⟩
  | @definition tokens head htokens hkind hhead hmeaningless =>
      obtain ⟨e, he, hreported⟩ := Table.restate_faults hhead hmeaningless
      have hqueries : (queriesOfKind settings .createTable sql tokens).outcome =
          .error (e.about sql) :=
        queriesOfKind_error.2 (.inr ⟨by decide, e, he, rfl⟩)
      refine ⟨_, restate_error.2 (.inr ⟨_, _, readStatement_ok.2 ⟨htokens, hkind⟩, hqueries⟩), ?_⟩
      apply Error.not_accounts_of_not_reported
      rw [Error.isReported_about, hreported]

/-- Where the rules of calls hold text, what any other statement fails with accounts for it. -/
theorem accounts_of_error
    (hrules : ∀ name rule, settings.functions.get? name = some rule → rule.holdsText = true)
    (haccounted : ¬ Unaccounted settings sql)
    (h : (restate settings tablePrefix sql).outcome = .error e) : e.Accounts sql := by
  rcases restate_error.1 h with hread | ⟨kind, tokens, hread, hqueries⟩
  · rcases readStatement_error.1 hread with htokens | ⟨tokens, e', htokens, hkind, rfl⟩
    · rcases accounts_of_tokenize htokens with haccounts | ⟨p, rfl⟩
      · exact haccounts
      · obtain ⟨ts, rest, hlexes, hopens⟩ := tokenize_valueless_iff.1 ⟨p, htokens⟩
        exact (haccounted (.digit hlexes hopens)).elim
    · exact (StatementKind.classify_refusing e' hkind).accounts sql
  · obtain ⟨htokens, hkind⟩ := readStatement_ok.1 hread
    rcases queriesOfKind_error.1 hqueries with ⟨hrow, hquery⟩ | ⟨hschema, e', he', rfl⟩
    · rcases rowQuery_error.1 hquery with hextract | ⟨bound, e', hbound, hrows, rfl⟩
      · have hunbindable := (Parameter.extract_error_iff _).1 ⟨e, hextract⟩
        exact (haccounted (.literal htokens hkind hrow hunbindable)).elim
      · exact (restateRows_refusing hrules kind bound.tokens e' hrows).accounts sql
    · refine Error.IsRefusal.accounts (restateSchemaTokens_refusing ?_ e' he') sql
      rintro rfl
      exact Table.restate_refusing fun head hhead hmeaningless =>
        haccounted (.definition htokens hkind hhead hmeaningless)

/-- With the built-in settings a statement that fails has an error that is reported as one about it
and carries the whole of it, unless a digit sign without a value stands where a number begins, or
its literals cannot be bound, or it is a new table that comes to a definition without a meaning. -/
theorem restate_accounts_iff (hload : Settings.load .builtIn = .ok settings)
    (tablePrefix sql : Text) :
    (∀ e, (restate settings tablePrefix sql).outcome = .error e → e.Accounts sql) ↔
      ¬ Unaccounted settings sql := by
  constructor
  · intro haccounts hun
    obtain ⟨e, he, hnot⟩ := hun.exists_error tablePrefix
    exact hnot (haccounts e he)
  · intro haccounted e he
    refine accounts_of_error (fun name rule hget => ?_) haccounted he
    exact FunctionRule.holdsText_of_isSilent ((Rows.builtIn_silent hload).2 name rule hget)

/-- Of a new table with a default in bits that has a value, the column behind it is refused, and the
error carries the statement. -/
theorem restate_accounts_unknownType :
    ∃ settings, Settings.load .builtIn = .ok settings ∧
      (restate settings [] "CREATE TABLE t (a bit(3) DEFAULT b'101', b object)").outcome =
        .error (.unsupported (.unknownType "object")
          (some "CREATE TABLE t (a bit(3) DEFAULT b'101', b object)")) ∧
      ¬ Unaccounted settings "CREATE TABLE t (a bit(3) DEFAULT b'101', b object)" := by
  obtain ⟨settings, hload, htest⟩ := exists_of_passes (show passes (fun settings =>
      failsBy (.unsupported (.unknownType "object")
          (some "CREATE TABLE t (a bit(3) DEFAULT b'101', b object)"))
        (restate settings [] "CREATE TABLE t (a bit(3) DEFAULT b'101', b object)").outcome)
      (Settings.load .builtIn) = true by decide +kernel)
  have herror := eq_error_of_failsBy htest
  refine ⟨settings, hload, herror, ?_⟩
  refine (restate_accounts_iff hload [] _).1 fun e he => ?_
  obtain rfl := Except.error.inj (herror.symm.trans he)
  exact ⟨rfl, rfl⟩

/-- A number in bits that spells none is refused without the statement. -/
theorem invalidBits_not_accounted :
    ∃ settings e, Settings.load .builtIn = .ok settings ∧
      (restate settings [] "SELECT b'2'").outcome = .error e ∧ ¬ e.Accounts "SELECT b'2'" := by
  obtain ⟨settings, hload, htest⟩ := exists_of_passes (show passes (fun settings =>
      failsBy (.refuse (.invalidBitLiteral "'2'")) (restate settings [] "SELECT b'2'").outcome)
      (Settings.load .builtIn) = true by decide +kernel)
  exact ⟨settings, _, hload, eq_error_of_failsBy htest,
    (Error.isRefusal_refuse _).not_accounts _⟩

end Restate
