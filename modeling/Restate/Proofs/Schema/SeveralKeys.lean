import Restate.Proofs.Schema.Meaningless
import Restate.Proofs.Schema.PrimaryKey

/-!
# Several primary keys

A table has one primary key, which a clause declares or the columns do. Main statement: a statement
that declares several keys is refused just if its definitions do not make a table, and otherwise the
columns of all of them, in order, become one key (`restate_severalKeys_iff`).
-/

namespace Restate

/-- The tokens are read as a column, up to the word by which it asks to be the primary key. -/
def ColumnDeclaresKey (types : Fields Text) (tokens : List Token) : Prop :=
  ∃ name span behindName behindType last,
    Reading.identifier ⟨[], tokens⟩ = (.ok name, behindName) ∧
    Reading.columnType types behindName = (.ok span, behindType) ∧
    Reading.Reaches (Reading.columnClause name) behindType last ∧
    last.ahead.head?.any (·.isWord ["PRIMARY", "KEY"]) = true

/-- The tokens of a definition declare a primary key: they are a clause for it, or a column that
asks to be it. -/
inductive DeclaresKey (types : Fields Text) (tokens : List Token) : Prop where
  | clause : sortOf tokens = .primaryKey → DeclaresKey types tokens
  | column : sortOf tokens = .column → ColumnDeclaresKey types tokens → DeclaresKey types tokens

/-- Several of the parts between commas declare a primary key. -/
def SeveralKeys (types : Fields Text) (parts : List (List Token)) : Prop :=
  ∃ declared : List (List Token), declared.Sublist parts ∧ 2 ≤ declared.length ∧
    ∀ part ∈ declared, DeclaresKey types (Cursor.withoutSemicolon part)

/-- The columns of the primary key that a definition declares. -/
def Definition.keyNames : Definition → List Text
  | .primaryKey names => names
  | .column c => if c.primaryKey then [c.name] else []
  | _ => []

theorem Column.primaryKey_foldl_set {clauses : List ColumnClause} {column : Column} :
    (clauses.foldl Column.set column).primaryKey = true ↔
      column.primaryKey = true ∨ .primaryKey ∈ clauses := by
  induction clauses generalizing column with
  | nil => simp
  | cons clause clauses ih =>
      rw [List.foldl_cons, ih]
      cases clause with
      | nullable | default | autoIncrement | primaryKey | unique | omitted => simp [set]

namespace Reading

variable {α : Type} {c c' last : Cursor} {types : Fields Text} {sql table : Text}
  {tokens : List Token}

theorem acceptWord_total (words : List Text) (c : Cursor) :
    ∃ o c', acceptWord words c = (.ok o, c') := by
  unfold acceptWord accept
  split
  · split
    · exact ⟨_, _, rfl⟩
    · exact ⟨_, _, rfl⟩
  · exact ⟨_, _, rfl⟩

/-- A clause that begins with `PRIMARY` or `KEY` asks for the primary key. -/
theorem columnClause_primaryKey (column : Text)
    (h : c.ahead.head?.any (·.isWord ["PRIMARY", "KEY"]) = true) :
    ∃ c', columnClause column c = (.ok .primaryKey, c') := by
  cases hahead : c.ahead with
  | nil => simp [hahead] at h
  | cons t rest =>
      have hword : t.isWord ["PRIMARY", "KEY"] = true := by simpa [hahead] using h
      have hother : ∀ {words : List Text}, (∀ w ∈ ["PRIMARY".toList, "KEY".toList], w ∉ words) →
          acceptWord words c = (.ok none, c) := by
        intro words hwords
        exact accept_of_other (by simpa [hahead] using Token.isWord_of_disjoint hword hwords)
      have hnot : acceptWords ["NOT", "NULL"] c = (.ok false, c) := by
        unfold acceptWords
        rw [hahead, beginsWith, Token.isWord_of_disjoint hword (by decide)]
        rfl
      unfold columnClause
      rw [bind_of_ok hnot, if_neg (by simp), bind_of_ok (hother (by decide)), if_neg (by simp),
        bind_of_ok (hother (by decide)), if_neg (by simp), bind_of_ok (hother (by decide)),
        if_neg (by simp)]
      rw [← List.singleton_append, Token.isWord_append, Bool.or_eq_true] at hword
      by_cases hprimary : t.isWord ["PRIMARY"] = true
      · obtain ⟨o, c', ho⟩ := acceptWord_total ["KEY"] (c.skip 1)
        have haccept : acceptWord ["PRIMARY"] c = (.ok (some t), c.skip 1) :=
          accept_of_ahead hahead hprimary
        refine ⟨c', ?_⟩
        rw [bind_of_ok haccept, if_pos (by rfl), bind_of_ok ho]
        rfl
      · have hskip : acceptWord ["PRIMARY"] c = (.ok none, c) :=
          accept_of_other (by simpa [hahead] using hprimary)
        have haccept : acceptWord ["KEY"] c = (.ok (some t), c.skip 1) :=
          accept_of_ahead hahead (hword.resolve_left hprimary)
        refine ⟨c.skip 1, ?_⟩
        rw [bind_of_ok hskip, if_neg (by simp), bind_of_ok haccept, if_pos (by rfl)]
        rfl

/-- A choice by the next token goes on behind it, or otherwise where it stands. -/
theorem accept_branch {p : Token → Bool} {x y : Reading α} {a : α}
    (h : (do if (← accept p).isSome then x else y) c = (.ok a, c')) :
    (∃ t last, p t = true ∧ c.ahead = t :: last.ahead ∧ x last = (.ok a, c')) ∨
      y c = (.ok a, c') := by
  obtain ⟨o, last, ho, hrest⟩ := bind_ok h
  rcases accept_reads ho with ⟨t, rfl, ht, hahead⟩ | ⟨rfl, rfl, -⟩
  · rw [if_pos Option.isSome_some] at hrest
    exact .inl ⟨t, last, ht, hahead, hrest⟩
  · rw [if_neg (by simp)] at hrest
    exact .inr hrest

theorem choice_branch {test : Reading Bool} {x y : Reading α} {a : α}
    (h : (do if ← test then x else y) c = (.ok a, c')) :
    (∃ last, x last = (.ok a, c')) ∨
      ∃ last, test c = (.ok false, last) ∧ y last = (.ok a, c') := by
  obtain ⟨b, last, hb, hrest⟩ := bind_ok h
  cases b with
  | true => exact .inl ⟨last, hrest⟩
  | false => exact .inr ⟨last, hb, hrest⟩

theorem not_asks {x : Reading α} {f : α → ColumnClause} (hf : ∀ a, f a ≠ .primaryKey) :
    (do return f (← x) : Reading ColumnClause) c ≠ (.ok .primaryKey, c') := by
  intro h
  obtain ⟨a, _, -, h⟩ := bind_ok h
  exact hf a (pure_ok h).1.symm

/-- Only a clause that begins with one of the two words asks for the primary key. -/
theorem columnClause_asks {column : Text} (h : columnClause column c = (.ok .primaryKey, c')) :
    c.ahead.head?.any (·.isWord ["PRIMARY", "KEY"]) = true := by
  rcases choice_branch h with ⟨_, h⟩ | ⟨_, hfalse, h⟩
  · cases (pure_ok h).1
  obtain ⟨-, rfl⟩ := acceptWords_ok hfalse
  rw [if_neg (by simp), Cursor.skip_zero] at h
  rcases accept_branch h with ⟨_, _, -, -, h⟩ | h
  · cases (pure_ok h).1
  rcases accept_branch h with ⟨_, _, -, -, h⟩ | h
  · exact (not_asks nofun h).elim
  rcases accept_branch h with ⟨_, _, -, -, h⟩ | h
  · cases (pure_ok h).1
  rcases accept_branch h with ⟨t, _, ht, hahead, -⟩ | h
  · rw [hahead]
    exact Token.isWord_of_subset ht (by decide)
  rcases accept_branch h with ⟨t, _, ht, hahead, -⟩ | h
  · rw [hahead]
    exact Token.isWord_of_subset ht (by decide)
  rcases accept_branch h with ⟨_, _, -, -, h⟩ | h
  · exact (not_asks nofun h).elim
  rcases accept_branch h with ⟨_, _, -, -, h⟩ | h
  · exact (not_asks nofun h).elim
  rcases choice_branch h with ⟨_, h⟩ | ⟨_, -, h⟩
  · exact (not_asks nofun h).elim
  rcases choice_branch h with ⟨_, h⟩ | ⟨_, -, h⟩
  · exact (not_asks nofun h).elim
  obtain ⟨_, _, -, h⟩ := bind_ok h
  exact (fail_not_ok h).elim

/-- What a repetition that succeeds collects is what its step yields wherever it comes to. -/
theorem mem_gather_iff {step : Reading α} {a : α} {collected : List α}
    (h : gather step c = (.ok collected, c')) :
    a ∈ collected ↔ ∃ last middle, Reaches step c last ∧ last.ahead ≠ [] ∧
      step last = (.ok a, middle) := by
  have hcollect : collect step c = (collected, .ok (), c') := by
    unfold gather at h
    split at h
    · next heq =>
        cases h
        exact heq
    · simp at h
  clear h
  fun_induction collect step c generalizing collected with
  | case1 c hend =>
      cases hcollect
      refine iff_of_false (by simp) ?_
      rintro ⟨last, middle, hreaches, hlast, -⟩
      have hnil : c'.ahead = [] := List.isEmpty_iff.1 hend
      cases hreaches with
      | here => exact hlast hnil
      | step _ hlt _ => simp [hnil] at hlt
  | case2 => simp at hcollect
  | case3 c hend b next hstep hlt more result hmore ih =>
      cases hcollect
      have hlast : c.ahead ≠ [] := fun hnil => hend (List.isEmpty_iff.2 hnil)
      refine (List.mem_cons.trans (or_congr Iff.rfl (ih hmore))).trans ⟨?_, ?_⟩
      · rintro (rfl | ⟨last, middle, hreaches, hrest⟩)
        · exact ⟨c, next, .here, hlast, hstep⟩
        · exact ⟨last, middle, .step hstep hlt hreaches, hrest⟩
      · rintro ⟨last, middle, hreaches, hrest⟩
        cases hreaches with
        | here =>
            cases hstep.symm.trans hrest.2
            exact .inl rfl
        | step hstep' _ hreaches =>
            cases hstep.symm.trans hstep'
            exact .inr ⟨last, middle, hreaches, hrest⟩
  | case4 c hend b next hstep hlt =>
      cases hcollect
      have hlast : c.ahead ≠ [] := fun hnil => hend (List.isEmpty_iff.2 hnil)
      refine List.mem_singleton.trans ⟨?_, ?_⟩
      · rintro rfl
        exact ⟨c, c', .here, hlast, hstep⟩
      · rintro ⟨last, middle, hreaches, hrest⟩
        cases hreaches with
        | here =>
            cases hstep.symm.trans hrest.2
            rfl
        | step hstep' hlt' _ =>
            cases hstep.symm.trans hstep'
            exact (hlt hlt').elim

/-- A column is read as one that asks to be the primary key just if its clauses come to a word for
it. -/
theorem column_primaryKey_iff {column : Column}
    (hread : (Reading.column types sql ⟨[], tokens⟩).1 = .ok column) :
    column.primaryKey = true ↔ ColumnDeclaresKey types tokens := by
  obtain ⟨name, behindName, hname, hrest⟩ := bind_ok (Prod.ext hread rfl)
  obtain ⟨span, behindType, hspan, hrest⟩ := bind_ok hrest
  obtain ⟨clauses, _, hclauses, hrest⟩ := bind_ok hrest
  obtain ⟨rfl, -⟩ := pure_ok hrest
  rw [Column.primaryKey_foldl_set, or_iff_right (show ¬ (Column.bare _ _ _).primaryKey = true from
    Bool.false_ne_true)]
  refine (mem_gather_iff hclauses).trans ⟨?_, ?_⟩
  · rintro ⟨last, middle, hreaches, -, hlast⟩
    exact ⟨name, span, behindName, behindType, last, hname, hspan, hreaches,
      columnClause_asks hlast⟩
  · rintro ⟨name', span', behindName', behindType', last, hname', hspan', hreaches, hword⟩
    cases hname.symm.trans hname'
    cases hspan.symm.trans hspan'
    obtain ⟨middle, hclause⟩ := columnClause_primaryKey name hword
    refine ⟨last, middle, hreaches, ?_, hclause⟩
    intro hnil
    simp [hnil] at hword

end Reading

/-- A definition names columns of the primary key just if its tokens declare one. -/
theorem Declares.keyNames_ne_nil_iff {types : Fields Text} {sql table : Text}
    {tokens : List Token} {definition : Definition}
    (h : Declares types sql table tokens definition) (hsort : definition.sort = sortOf tokens) :
    definition.keyNames ≠ [] ↔ DeclaresKey types tokens := by
  have hsorts : DeclaresKey types tokens ↔ definition.sort = .primaryKey ∨
      definition.sort = .column ∧ ColumnDeclaresKey types tokens := by
    rw [hsort]
    constructor
    · rintro (hclause | ⟨hcolumn, hdeclares⟩)
      · exact .inl hclause
      · exact .inr ⟨hcolumn, hdeclares⟩
    · rintro (hclause | ⟨hcolumn, hdeclares⟩)
      · exact .clause hclause
      · exact .column hcolumn hdeclares
  rw [hsorts]
  cases h with
  | @column first rest column hname hvalue hread =>
      rw [← Reading.column_primaryKey_iff hread]
      simp [Definition.keyNames, Definition.sort]
  | @primaryKey constraint kind list options primary word columns _ _ _ _ hlist _ =>
      exact iff_of_true (fun hnil => hlist.ne_nil (List.map_eq_nil_iff.1 hnil)) (.inl rfl)
  | uniqueKey | key | dropped => simp [Definition.keyNames, Definition.sort]

namespace Table

variable {types : Fields Text} {sql name : Text} {parts : List (List Token)}
  {definitions : List Definition}

theorem keyNames_of_noClause (h : definitions.flatMap Definition.primaryNames = []) :
    definitions.flatMap Definition.keyNames =
      inlineNames (definitions.filterMap Definition.column?) := by
  induction definitions with
  | nil => rfl
  | cons definition definitions ih =>
      rw [List.flatMap_cons, List.append_eq_nil_iff] at h
      rw [List.flatMap_cons, ih h.2]
      cases definition with
      | column c =>
          cases hkey : c.primaryKey with
          | true => simp [Definition.keyNames, Definition.column?, inlineNames, hkey]
          | false => simp [Definition.keyNames, Definition.column?, inlineNames, hkey]
      | primaryKey names =>
          obtain rfl : names = [] := h.1
          rfl
      | key | dropped => rfl

theorem keyNames_of_noInline (h : inlineNames (definitions.filterMap Definition.column?) = []) :
    definitions.flatMap Definition.keyNames = definitions.flatMap Definition.primaryNames := by
  refine congrArg List.flatten (List.map_congr_left fun definition hmem => ?_)
  cases definition with
  | column c =>
      have hfree : c.primaryKey = false := by
        rw [inlineNames, List.map_eq_nil_iff, List.filter_eq_nil_iff] at h
        exact Bool.eq_false_iff.2 (h c (List.mem_filterMap.2 ⟨_, hmem, rfl⟩))
      simp [Definition.keyNames, Definition.primaryNames, hfree]
  | primaryKey | key | dropped => rfl

/-- Where one way of declaring it is used, the primary key is all columns that are declared. -/
theorem MakesTable.keyNames_eq (h : MakesTable definitions) :
    keyNames definitions = definitions.flatMap Definition.keyNames := by
  unfold keyNames
  split
  · next hclauses => exact (keyNames_of_noClause (by simpa using hclauses)).symm
  · next hclauses =>
      have hinline := h.oneWay.resolve_left (by simpa using hclauses)
      exact (keyNames_of_noInline hinline).symm

open Classical in
/-- As many parts declare a primary key as definitions are read that name a column of it. -/
theorem countP_declaresKey (h : List.Forall₂ (fun part definition =>
      definition.sort = sortOf (Cursor.withoutSemicolon part) ∧
        Declares types sql name (Cursor.withoutSemicolon part) definition) parts definitions) :
    parts.countP (fun part => DeclaresKey types (Cursor.withoutSemicolon part)) =
      definitions.countP (·.keyNames ≠ []) := by
  induction h with
  | nil => rfl
  | cons hpart _ ih =>
      simp only [List.countP_cons, ih, hpart.2.keyNames_ne_nil_iff hpart.1]

/-- Where the definitions are read, several parts declare a primary key just if several definitions
name a column of it. -/
theorem severalKeys_iff (h : List.Forall₂ (fun part definition =>
      definition.sort = sortOf (Cursor.withoutSemicolon part) ∧
        Declares types sql name (Cursor.withoutSemicolon part) definition) parts definitions) :
    SeveralKeys types parts ↔ 2 ≤ definitions.countP (·.keyNames ≠ []) := by
  classical
  rw [← countP_declaresKey h]
  constructor
  · rintro ⟨declaring, hsub, hlength, hkeys⟩
    have hall := List.countP_eq_length.2 fun part hpart => decide_eq_true (hkeys part hpart)
    exact Nat.le_trans (hall ▸ hlength) hsub.countP_le
  · intro hcount
    rw [List.countP_eq_length_filter] at hcount
    exact ⟨_, List.filter_sublist, hcount,
      fun part hpart => of_decide_eq_true (List.mem_filter.1 hpart).2⟩

theorem countP_le_keyNames (definitions : List Definition) :
    definitions.countP (·.keyNames ≠ []) ≤ (definitions.flatMap Definition.keyNames).length := by
  induction definitions with
  | nil => exact Nat.le_refl 0
  | cons definition definitions ih =>
      rw [List.flatMap_cons, List.length_append]
      by_cases hkey : definition.keyNames ≠ []
      · have hpos := List.length_pos_iff.2 hkey
        rw [List.countP_cons_of_pos (by simpa using hkey)]
        omega
      · rw [List.countP_cons_of_neg (by simpa using hkey)]
        omega

/-- A primary key of several columns has a line of its own. -/
theorem lines_composite {table : Table} (h : 2 ≤ table.primaryKey.length) :
    table.lines = table.columns.map Column.line ++ [keyLine table.primaryKey] := by
  have hnone : ∀ c ∈ table.columns, ¬ c.NumbersItself table.primaryKey := by
    intro c _ hnumbers
    have hone := congrArg List.length hnumbers.1
    rw [List.length_map, List.length_singleton] at hone
    omega
  rw [lines_unnumbered hnone, if_neg]
  rintro hempty
  simp [List.isEmpty_iff.1 hempty] at h

/-- What a statement declares is found in steps. -/
theorem declared_ok_iff {head : TableHead} :
    declared types sql = .ok (head, definitions) ↔ ∃ tokens, tokenize sql = .ok tokens ∧
      Reading.tableHead.run (significant tokens) = .ok head ∧
      (readDefinitions types sql head.name (splitTopLevel "," head.body)).outcome =
        .ok definitions := by
  unfold declared
  simp only [except_bind_ok, pure, Except.pure, Except.ok.injEq, Prod.mk.injEq]
  constructor
  · rintro ⟨tokens, htokens, _, hhead, _, hread, rfl, rfl⟩
    exact ⟨tokens, htokens, hhead, hread⟩
  · rintro ⟨tokens, htokens, hhead, hread⟩
    exact ⟨tokens, htokens, head, hhead, definitions, hread, rfl, rfl⟩

/-- What is declared is what stands between the commas behind the head. -/
theorem declared_declares {head : TableHead} (h : declared types sql = .ok (head, definitions)) :
    ∃ tokens front options, tokenize sql = .ok tokens ∧ significant tokens = front ++ options ∧
      IsTableHead head front ∧ List.Forall₂ (fun part definition =>
        definition.sort = sortOf (Cursor.withoutSemicolon part) ∧
          Declares types sql head.name (Cursor.withoutSemicolon part) definition)
        (splitTopLevel "," head.body) definitions := by
  obtain ⟨tokens, htokens, hhead, hread⟩ := declared_ok_iff.1 h
  obtain ⟨front, options, hfront, hishead, -⟩ := Reading.tableHead_reads (Prod.ext hhead rfl)
  obtain ⟨rest, hrest⟩ := Cursor.withoutSemicolon_prefix (significant tokens)
  have hreport : readDefinitions types sql head.name (splitTopLevel "," head.body) =
      ⟨(readDefinitions types sql head.name (splitTopLevel "," head.body)).notices,
        .ok definitions⟩ := by
    rw [← hread]
  refine ⟨tokens, front, options ++ rest, htokens, ?_, hishead,
    (readDefinitions_declares hreport).1⟩
  rw [← hrest, ← List.append_assoc, ← hfront]
  rfl

/-- A new table is restated just if its head and its definitions are read and make a table. -/
theorem restate_ok_iff {tokens : List Token} {statements : List Text} :
    (Table.restate types sql tokens).outcome = .ok statements ↔ ∃ head definitions table,
      Reading.tableHead.run tokens = .ok head ∧
      (readDefinitions types sql head.name (splitTopLevel "," head.body)).outcome =
        .ok definitions ∧
      ofDefinitions head definitions = .ok table ∧ statements = table.statements := by
  simp only [Table.restate, Report.bind_ok, Report.ofExcept, Report.notes, Report.pure_ok]
  constructor
  · rintro ⟨head, hhead, definitions, hread, table, htable, -, -, rfl⟩
    exact ⟨head, definitions, table, hhead, hread, htable, rfl⟩
  · rintro ⟨head, definitions, table, hhead, hread, htable, rfl⟩
    exact ⟨head, hhead, definitions, hread, table, htable, (), trivial, rfl⟩

end Table

section SeveralKeys

variable {settings : Settings} {sql : Text} {tokens : List Token} {head : TableHead}

/-- Several primary keys of a statement that makes a table become one, of all their columns. -/
theorem restate_mergesKeys {definitions : List Definition} (tablePrefix : Text)
    (htokens : tokenize sql = .ok tokens)
    (hkind : StatementKind.classify tokens = .ok .createTable)
    (hseveral : SeveralKeys settings.types (splitTopLevel "," head.body))
    (hdeclared : Table.declared settings.types sql = .ok (head, definitions))
    (hmakes : Table.MakesTable definitions) :
    ∃ r : Restatement, (restate settings tablePrefix sql).outcome = .ok r ∧
      2 ≤ (definitions.flatMap Definition.keyNames).length ∧
      r.queries.head? = some (Query.plain (Table.text head.temporary head.ifNotExists head.name
        ((definitions.filterMap Definition.column?).map Column.line ++
          [Table.keyLine (definitions.flatMap Definition.keyNames)]))) := by
  obtain ⟨tokens', htokens', hhead, hread⟩ := Table.declared_ok_iff.1 hdeclared
  obtain rfl := Except.ok.inj (htokens'.symm.trans htokens)
  obtain ⟨_, _, _, -, -, -, hdeclares⟩ := Table.declared_declares hdeclared
  have hcount := (Table.severalKeys_iff hdeclares).1 hseveral
  have hcomposite := Nat.le_trans hcount (Table.countP_le_keyNames definitions)
  obtain ⟨table, htable⟩ : ∃ table, Table.ofDefinitions head definitions = .ok table :=
    ⟨_, Table.ofDefinitions_ok_iff.2 ⟨hmakes, rfl⟩⟩
  have hshape := (Table.ofDefinitions_ok_iff.1 htable).2
  have hprimary : table.primaryKey = definitions.flatMap Definition.keyNames := by
    rw [hshape, ← hmakes.keyNames_eq]
  have hlines : table.lines = (definitions.filterMap Definition.column?).map Column.line ++
      [Table.keyLine (definitions.flatMap Definition.keyNames)] := by
    rw [← hprimary] at hcomposite ⊢
    rw [Table.lines_composite hcomposite, hshape]
  have hstatements := Table.restate_ok_iff.2 ⟨head, definitions, table, hhead, hread, htable, rfl⟩
  refine ⟨⟨table.statements.map Query.plain, some .createTable, tablePrefix⟩, ?_, hcomposite, ?_⟩
  · rw [restate_of_schema tablePrefix htokens hkind (by decide), restateSchemaTokens, hstatements]
    rfl
  · rw [Table.statements_eq_text, hlines, hshape]
    rfl

/-- A statement that declares several primary keys is refused just if its definitions do not make a
table, unless it comes to one without a meaning. Otherwise the columns of all keys are one key. -/
theorem restate_severalKeys_iff {tablePrefix : Text} {front options : List Token}
    (htokens : tokenize sql = .ok tokens)
    (hkind : StatementKind.classify tokens = .ok .createTable)
    (hsplit : significant tokens = front ++ options) (hhead : IsTableHead head front)
    (hseveral : SeveralKeys settings.types (splitTopLevel "," head.body)) :
    ((∃ cause, (restate settings tablePrefix sql).outcome =
          .error (.unsupported cause (some sql))) ↔
        ¬ (Reading.tableHead.run (significant tokens) = .ok head ∧
            Table.ComesToMeaningless settings.types sql head.name
              (splitTopLevel "," head.body)) ∧
          ¬ ∃ definitions, Table.declared settings.types sql = .ok (head, definitions) ∧
            Table.MakesTable definitions) ∧
      ∀ definitions, Table.declared settings.types sql = .ok (head, definitions) →
        Table.MakesTable definitions →
        ∃ r : Restatement, (restate settings tablePrefix sql).outcome = .ok r ∧
          2 ≤ (definitions.flatMap Definition.keyNames).length ∧
          r.queries.head? = some (Query.plain (Table.text head.temporary head.ifNotExists head.name
            ((definitions.filterMap Definition.column?).map Column.line ++
              [Table.keyLine (definitions.flatMap Definition.keyNames)]))) := by
  have hone : ∀ other, Reading.tableHead.run (significant tokens) = .ok other → other = head := by
    intro other hother
    rw [hsplit] at hother
    exact Reading.tableHead_of_front hhead hother
  refine ⟨⟨?_, ?_⟩, fun _ => restate_mergesKeys tablePrefix htokens hkind hseveral⟩
  · rintro ⟨cause, herror⟩
    constructor
    · rintro ⟨hrun, hmeaningless⟩
      obtain ⟨e, he, hreported⟩ := Table.restate_faults hrun hmeaningless
      rw [restate_of_schema tablePrefix htokens hkind (by decide), restateSchemaTokens,
        he] at herror
      have habout : e.about sql = .unsupported cause (some sql) := Except.error.inj herror
      rw [← Error.isReported_about sql e, habout] at hreported
      cases hreported
    · rintro ⟨definitions, hdeclared, hmakes⟩
      obtain ⟨r, hok, -⟩ :=
        restate_mergesKeys tablePrefix htokens hkind hseveral hdeclared hmakes
      cases hok.symm.trans herror
  · rintro ⟨hmeaning, hmakes⟩
    cases hrun : (Table.restate settings.types sql (significant tokens)).outcome with
    | ok statements =>
        obtain ⟨other, definitions, table, hother, hread, htable, -⟩ :=
          Table.restate_ok_iff.1 hrun
        obtain rfl := hone other hother
        exact (hmakes ⟨definitions, Table.declared_ok_iff.2 ⟨tokens, htokens, hother, hread⟩,
          (Table.ofDefinitions_ok_iff.1 htable).1⟩).elim
    | error e =>
        have hrefusing : Refusing (Table.restate settings.types sql (significant tokens)).outcome :=
          Table.restate_refusing fun other hother hmeaningless => by
            obtain rfl := hone other hother
            exact hmeaning ⟨hother, hmeaningless⟩
        obtain ⟨cause, rfl⟩ := hrefusing e hrun
        refine ⟨cause, ?_⟩
        rw [restate_of_schema tablePrefix htokens hkind (by decide), restateSchemaTokens, hrun]
        rfl

/-- A clause beside a column that asks to be the primary key is refused. -/
theorem restate_severalKeys_mixed :
    ∃ (settings : Settings) (tokens front options : List Token) (head : TableHead),
      Settings.load .builtIn = .ok settings ∧
      tokenize "CREATE TABLE t (a INT PRIMARY KEY, b INT, PRIMARY KEY (b))" = .ok tokens ∧
      StatementKind.classify tokens = .ok .createTable ∧
      significant tokens = front ++ options ∧ IsTableHead head front ∧
      SeveralKeys settings.types (splitTopLevel "," head.body) ∧
      ∃ cause, (restate settings []
          "CREATE TABLE t (a INT PRIMARY KEY, b INT, PRIMARY KEY (b))").outcome =
        .error (.unsupported cause
          (some "CREATE TABLE t (a INT PRIMARY KEY, b INT, PRIMARY KEY (b))")) := by
  obtain ⟨settings, hload, htest⟩ := exists_of_passes (show passes (fun settings =>
      passes (fun said => decide (2 ≤ said.2.countP (·.keyNames ≠ []) ∧
          said.2.flatMap Definition.primaryNames ≠ [] ∧
          Table.inlineNames (said.2.filterMap Definition.column?) ≠ []))
        (Table.declared settings.types
          "CREATE TABLE t (a INT PRIMARY KEY, b INT, PRIMARY KEY (b))") &&
      passes (fun tokens => passes (· == .createTable) (StatementKind.classify tokens))
        (tokenize "CREATE TABLE t (a INT PRIMARY KEY, b INT, PRIMARY KEY (b))"))
      (Settings.load .builtIn) = true by decide +kernel)
  obtain ⟨hdeclared, hkind⟩ := Bool.and_eq_true_iff.1 htest
  obtain ⟨⟨head, definitions⟩, hdeclared, htest⟩ := exists_of_passes hdeclared
  obtain ⟨hcount, hclauses, hinline⟩ := of_decide_eq_true htest
  obtain ⟨tokens, htokens, hkind⟩ := exists_of_passes hkind
  obtain ⟨kind, hclassify, hkind⟩ := exists_of_passes hkind
  obtain rfl : kind = .createTable := eq_of_beq hkind
  obtain ⟨tokens', front, options, htokens', hsplit, hhead, hdeclares⟩ :=
    Table.declared_declares hdeclared
  obtain rfl := Except.ok.inj (htokens.symm.trans htokens')
  have hseveral := (Table.severalKeys_iff hdeclares).2 hcount
  obtain ⟨_, htokens', hrun, hread⟩ := Table.declared_ok_iff.1 hdeclared
  refine ⟨settings, tokens, front, options, head, hload, htokens, hclassify, hsplit, hhead,
    hseveral, (restate_severalKeys_iff htokens hclassify hsplit hhead hseveral).1.2 ⟨?_, ?_⟩⟩
  · rintro ⟨-, hmeaningless⟩
    obtain ⟨e, he, -⟩ := Table.readDefinitions_faults hmeaningless
    cases hread.symm.trans he
  · rintro ⟨_, hdeclared', hmakes⟩
    cases hdeclared.symm.trans hdeclared'
    exact hmakes.oneWay.elim hclauses hinline

/-- Two clauses for the primary key become one key of two columns. -/
theorem severalKeys_merged :
    ∃ (settings : Settings) (head : TableHead) (definitions : List Definition) (r : Restatement),
      Settings.load .builtIn = .ok settings ∧
      Table.declared settings.types
        "CREATE TABLE t (a INT, b INT, PRIMARY KEY (a), PRIMARY KEY (b))" =
          .ok (head, definitions) ∧
      SeveralKeys settings.types (splitTopLevel "," head.body) ∧
      (restate settings []
        "CREATE TABLE t (a INT, b INT, PRIMARY KEY (a), PRIMARY KEY (b))").outcome = .ok r ∧
      r.queries.map (fun query => query.command.text) = ["CREATE TABLE \"t\" (
    \"a\" integer,
    \"b\" integer,
    PRIMARY KEY (\"a\", \"b\")
)".toList] := by
  obtain ⟨settings, hload, htest⟩ := exists_of_passes (show passes (fun settings =>
      passes (fun said => decide (2 ≤ said.2.countP (·.keyNames ≠ [])))
        (Table.declared settings.types
          "CREATE TABLE t (a INT, b INT, PRIMARY KEY (a), PRIMARY KEY (b))") &&
      passes (fun r => decide (r.queries.map (fun query => query.command.text) =
          ["CREATE TABLE \"t\" (
    \"a\" integer,
    \"b\" integer,
    PRIMARY KEY (\"a\", \"b\")
)".toList]))
        (restate settings []
          "CREATE TABLE t (a INT, b INT, PRIMARY KEY (a), PRIMARY KEY (b))").outcome)
      (Settings.load .builtIn) = true by decide +kernel)
  obtain ⟨hdeclared, hrun⟩ := Bool.and_eq_true_iff.1 htest
  obtain ⟨⟨head, definitions⟩, hdeclared, hcount⟩ := exists_of_passes hdeclared
  obtain ⟨r, hrestate, hqueries⟩ := exists_of_passes hrun
  obtain ⟨_, _, _, -, -, -, hdeclares⟩ := Table.declared_declares hdeclared
  exact ⟨settings, head, definitions, r, hload, hdeclared,
    (Table.severalKeys_iff hdeclares).2 (of_decide_eq_true hcount), hrestate,
    of_decide_eq_true hqueries⟩

end SeveralKeys

end Restate
