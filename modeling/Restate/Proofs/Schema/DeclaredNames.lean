import Restate.Proofs.Schema.IndexNames
import Restate.Proofs.Schema.NewTable
import Restate.Proofs.Schema.OneIndex

/-!
# Declared names of keys

A clause for a key of a new table may declare a name, and statements that drop the key go by that
name. Main statement: they drop the index that the clause is restated as, just if the declared name
is not empty and no key before it has got that name, in whatever case
(`restate_createTable_declared`).
-/

namespace Restate

/-- The tokens behind the words that introduce a key. -/
def behindKeyWords : List Token → List Token
  | [] => []
  | word :: rest =>
    if word.isWord ["UNIQUE"] && rest.head?.any (·.isWord ["KEY", "INDEX"]) then rest.tail else rest

/-- The name that comes first, unless the columns or the kind of an index do. -/
def leadingName? (tokens : List Token) : Option Text :=
  match tokens.head? with
  | some t => if t.isPunct "(" || t.isWord ["USING"] then none else some t.value
  | none => none

/-- The name that a clause for a key declares. -/
def declaredName? (clause : List Token) : Option Text :=
  leadingName? (behindKeyWords (behindConstraint clause))

/-- The clauses for keys among the definitions of a new table. -/
def keyClauses (parts : List (List Token)) : List (List Token) :=
  (parts.map Cursor.withoutSemicolon).filter fun part => sortOf part = .key

/-- The name of a key, given the name that may be declared and the columns. -/
def Index.nameFor (declared : Option Text) (columns : List IndexColumn) : Text :=
  if (declared.getD []).isEmpty then (columns.head?.map IndexColumn.name).getD []
  else declared.getD []

namespace Reading

variable {c c' : Cursor} {index : Index}

theorem keyName?_eq {name : Option Text} (h : keyName? c = (.ok name, c')) :
    name = leadingName? c.ahead := by
  obtain ⟨_, _, hhere, hrest⟩ := bind_ok h
  obtain ⟨rfl, rfl⟩ := here_ok hhere
  unfold leadingName?
  rw [Cursor.next?] at hrest
  cases hnext : c.ahead.head? with
  | none =>
      rw [hnext] at hrest
      exact (pure_ok hrest).1
  | some t =>
      rw [hnext] at hrest
      dsimp only at hrest ⊢
      split at hrest
      · next hmissing =>
          rw [if_pos hmissing]
          exact (pure_ok hrest).1
      · next hgiven =>
          obtain ⟨name, middle, hidentifier, hrest⟩ := bind_ok hrest
          obtain ⟨u, hhead, -, rfl, -⟩ := identifier_ok hidentifier
          obtain rfl := Option.some.inj (hnext.symm.trans hhead)
          rw [if_neg hgiven]
          exact (pure_ok hrest).1

/-- The index is for the table, and named by the name that comes first or by a column. -/
def NamedBy (table : Text) (index : Index) (tokens : List Token) : Prop :=
  index.table = table ∧ index.name = Index.nameFor (leadingName? tokens) index.columns

/-- A key is named by the name before its columns, or by the first of them. -/
theorem key_named {table : Text} {unique : Bool}
    (h : (do return .key (← key table unique) : Reading Definition) c = (.ok (.key index), c')) :
    NamedBy table index c.ahead := by
  obtain ⟨index', _, hkey, hrest⟩ := bind_ok h
  obtain rfl : index = index' := Definition.key.inj (pure_ok hrest).1
  obtain ⟨name, _, hname, hrest⟩ := bind_ok hkey
  obtain ⟨_, _, -, hrest⟩ := bind_ok hrest
  obtain ⟨columns, _, -, hrest⟩ := bind_ok hrest
  obtain ⟨_, _, -, hrest⟩ := bind_ok hrest
  obtain ⟨rfl, -⟩ := pure_ok hrest
  obtain rfl := keyName?_eq hname
  exact ⟨rfl, rfl⟩

/-- Behind `UNIQUE`, a word for a key may come before the name. -/
theorem uniqueKey_named {table : Text} {unique : Token} (hunique : unique.isWord ["UNIQUE"] = true)
    (h : (do
      let _ ← acceptWord ["KEY", "INDEX"]
      return .key (← key table true) : Reading Definition) c = (.ok (.key index), c')) :
    NamedBy table index (behindKeyWords (unique :: c.ahead)) := by
  obtain ⟨o, body, haccept, hkey⟩ := bind_ok h
  have hnamed := key_named hkey
  rw [behindKeyWords, hunique, Bool.true_and]
  rcases accept_reads haccept with ⟨word, rfl, hword, hahead⟩ | ⟨rfl, rfl, hnone⟩
  · rw [hahead, if_pos (by simpa using hword)]
    exact hnamed
  · have hnot : ¬ body.ahead.head?.any (·.isWord ["KEY", "INDEX"]) = true := by
      rw [Option.any_eq_true]
      rintro ⟨t, ht, hword⟩
      exact Bool.false_ne_true ((hnone t ht).symm.trans hword)
    rw [if_neg hnot]
    exact hnamed

/-- A clause for a key is named by the name it declares, or by the first of its columns. -/
theorem definition_named {types : Fields Text} {sql table : Text} {tokens : List Token}
    (h : Reading.definition types sql table ⟨[], tokens⟩ = (.ok (.key index), c')) :
    NamedBy table index (behindKeyWords (behindConstraint tokens)) := by
  unfold Reading.definition at h
  obtain ⟨constraint, last, -, -, hbehind, -, hdefinition⟩ := constraint_reads h
  dsimp only at hbehind
  rw [hbehind]
  -- a primary key is no key of this sort, and neither is what no word introduces
  obtain ⟨o, middle, haccept, hclause⟩ := bind_ok hdefinition
  rcases accept_reads haccept with ⟨primary, rfl, -, -⟩ | ⟨rfl, rfl, -⟩
  · rw [if_pos Option.isSome_some] at hclause
    obtain ⟨_, _, -, hrest⟩ := bind_ok hclause
    obtain ⟨_, _, -, hrest⟩ := bind_ok hrest
    obtain ⟨_, _, -, hrest⟩ := bind_ok hrest
    obtain ⟨_, _, -, hrest⟩ := bind_ok hrest
    cases (pure_ok hrest).1
  obtain ⟨o, behind, haccept, hkeys⟩ := bind_ok hclause
  rcases accept_reads haccept with ⟨unique, rfl, hunique, hahead⟩ | ⟨rfl, rfl, hnotUnique⟩
  · rw [if_pos Option.isSome_some] at hkeys
    rw [hahead]
    exact uniqueKey_named hunique hkeys
  obtain ⟨o, body, haccept, hcolumn⟩ := bind_ok hkeys
  rcases accept_reads haccept with ⟨word, rfl, -, hahead⟩ | ⟨rfl, rfl, -⟩
  · rw [if_pos Option.isSome_some] at hcolumn
    have hother : word.isWord ["UNIQUE"] = false := hnotUnique word (by rw [hahead]; rfl)
    rw [hahead, behindKeyWords, hother, Bool.false_and, if_neg Bool.false_ne_true]
    exact key_named hcolumn
  · obtain ⟨t, rest, -, ⟨-, heq⟩ | ⟨-, -, column, heq, -⟩⟩ := columnDefinition_reads hcolumn
    · cases heq
    · cases heq

end Reading

namespace Table

/-- The keys are those of the clauses, each named for its clause. -/
theorem readDefinitions_named {types : Fields Text} {sql table : Text} {parts : List (List Token)}
    {definitions : List Definition} {notices : List Notice}
    (h : readDefinitions types sql table parts = ⟨notices, .ok definitions⟩) :
    List.Forall₂ (fun clause index => index.table = table ∧
        index.name = Index.nameFor (declaredName? clause) index.columns)
      (keyClauses parts) (definitions.filterMap Definition.key?) := by
  induction parts generalizing definitions notices with
  | nil =>
      cases h
      exact .nil
  | cons part parts ih =>
      obtain ⟨definition, more, after, hread, hmore, rfl, -⟩ := readDefinitions_cons h
      have hrun : Reading.definition types sql table ⟨[], Cursor.withoutSemicolon part⟩ =
          (.ok definition, _) := Prod.ext hread rfl
      obtain ⟨hsort, -⟩ := Reading.definition_reads hrun
      have hclauses : keyClauses (part :: parts) =
          if sortOf (Cursor.withoutSemicolon part) = .key then
            Cursor.withoutSemicolon part :: keyClauses parts
          else keyClauses parts := by
        simp [keyClauses, List.filter_cons]
      have hrest := ih hmore
      rw [hclauses, ← hsort]
      cases definition with
      | key index => exact .cons (Reading.definition_named hrun) hrest
      | column | primaryKey | dropped => exact hrest

end Table

section Kept

variable {key index : Index} {earlier : List Index} {declared : Text}

theorem Index.nameFor_eq_iff {columns : List IndexColumn} :
    Index.nameFor (some declared) columns = declared ↔
      declared ≠ [] ∨ (columns.head?.map IndexColumn.name).getD [] = [] := by
  unfold Index.nameFor
  by_cases hempty : declared = []
  · simp [hempty]
  · simp [hempty]

/-- A key that may be given its declared name keeps it just if no earlier key has got it. -/
theorem Table.IsFirstFree.eq_iff {used : List Text} {name chosen : Text}
    (h : IsFirstFree used name chosen) (hname : name = declared ∨ declared = []) :
    chosen = declared ↔ name = declared ∧ Text.lower declared ∉ used := by
  constructor
  · rintro rfl
    refine ⟨?_, h.not_mem⟩
    rcases hname with hname | hempty
    · exact hname
    · unfold IsFirstFree at h
      split at h
      · obtain ⟨n, -, hnumbered, -⟩ := h
        simp [hempty, numberedName] at hnumbered
      · exact h.symm
  · rintro ⟨rfl, hunused⟩
    unfold IsFirstFree at h
    rwa [if_neg hunused] at h

/-- A key keeps its declared name just if there is one and no earlier key has got it. -/
theorem Index.fullName_eq_iff
    (hindex : index = { key with name := index.name })
    (hname : key.name = Index.nameFor (some declared) key.columns)
    (hfree : Table.IsFirstFree (Table.lowerNames earlier) key.name index.name) :
    index.fullName = Index.fullNameOf key.table declared ↔
      (declared ≠ [] ∨ (index.columns.head?.map IndexColumn.name).getD [] = []) ∧
        Text.lower declared ∉ Table.lowerNames earlier := by
  have hcolumns : index.columns = key.columns := by rw [hindex]
  have hfull : index.fullName = Index.fullNameOf key.table declared ↔ index.name = declared := by
    have htable : index.table = key.table := by rw [hindex]
    simp [Index.fullName, Index.fullNameOf, htable]
  have hdeclared : key.name = declared ∨ declared = [] := by
    rw [hname, Index.nameFor_eq_iff]
    tauto
  rw [hfull, hfree.eq_iff hdeclared, hname, Index.nameFor_eq_iff, hcolumns]

end Kept

/-- A statement that drops a key of a table, whose names are quoted or bare. -/
inductive DropsKey (table key : Text) : List Token → Prop where
  | altered {alter word name drop kind named : Token} : alter.isWord ["ALTER"] = true →
      word.isWord ["TABLE"] = true → name.isName → name.value = table →
      drop.isWord ["DROP"] = true → kind.isWord ["INDEX", "KEY"] = true → named.isName →
      named.value = key → DropsKey table key [alter, word, name, drop, kind, named]
  | dropped {drop kind named on name : Token} : drop.isWord ["DROP"] = true →
      kind.isWord ["INDEX"] = true → named.isName → named.value = key → on.isWord ["ON"] = true →
      name.isName → name.value = table → DropsKey table key [drop, kind, named, on, name]

theorem DropsKey.unique {table table' key key' : Text} {tokens : List Token}
    (h : DropsKey table key tokens) (h' : DropsKey table' key' tokens) :
    table = table' ∧ key = key' := by
  cases h with
  | altered _ _ _ htable _ _ _ hkey =>
      cases h' with
      | altered _ _ _ htable' _ _ _ hkey' =>
          exact ⟨htable.symm.trans htable', hkey.symm.trans hkey'⟩
  | dropped _ _ _ hkey _ _ htable =>
      cases h' with
      | dropped _ _ _ hkey' _ _ htable' =>
          exact ⟨htable.symm.trans htable', hkey.symm.trans hkey'⟩

namespace Reading

variable {c c' : Cursor}

theorem alterTable_reads {table : Text} (h : alterTable c = (.ok table, c')) :
    ∃ alter word name, c.ahead = alter :: word :: name :: c'.ahead ∧
      alter.isWord ["ALTER"] = true ∧ word.isWord ["TABLE"] = true ∧ name.isName ∧
      name.value = table := by
  obtain ⟨alter, _, halter, hrest⟩ := bind_ok h
  obtain ⟨word, _, hword, hrest⟩ := bind_ok hrest
  obtain ⟨halterAhead, halter⟩ := expectWord_reads halter
  obtain ⟨hwordAhead, hword⟩ := expectWord_reads hword
  obtain ⟨name, hnameAhead, hname, rfl⟩ := identifier_reads (tableName_ok hrest)
  exact ⟨alter, word, name, by rw [halterAhead, hwordAhead, hnameAhead], halter, hword, hname, rfl⟩

/-- What a statement that drops an index is made of. -/
theorem droppedIndex_reads {table key : Text} (h : droppedIndex c = (.ok (table, key), c')) :
    DropsKey table key c.ahead := by
  have hends : ∀ {dropped : Text × Text} {c : Cursor}, (do
      match (← here).next? with
      | some t => fail (.afterDropIndex t.text)
      | none => return dropped : Reading (Text × Text)) c = (.ok (table, key), c') →
      c.ahead = [] ∧ dropped = (table, key) := by
    intro dropped c h
    obtain ⟨_, _, hhere, hrest⟩ := bind_ok h
    obtain ⟨rfl, rfl⟩ := here_ok hhere
    cases hnext : c.next? with
    | some t =>
        rw [hnext] at hrest
        exact (fail_not_ok hrest).elim
    | none =>
        rw [hnext] at hrest
        exact ⟨List.head?_eq_none_iff.1 hnext, (pure_ok hrest).1.symm⟩
  obtain ⟨_, _, hhere, hrest⟩ := bind_ok h
  obtain ⟨rfl, rfl⟩ := here_ok hhere
  split at hrest
  · obtain ⟨target, _, halters, hrest⟩ := bind_ok hrest
    obtain ⟨drop, _, hdrop, hrest⟩ := bind_ok hrest
    obtain ⟨kind, _, hkind, hrest⟩ := bind_ok hrest
    obtain ⟨name, last, hname, hrest⟩ := bind_ok hrest
    obtain ⟨hend, heq⟩ := hends hrest
    obtain ⟨rfl, rfl⟩ := Prod.mk.inj heq
    obtain ⟨alter, word, token, halterAhead, halter, hword, htoken, rfl⟩ := alterTable_reads halters
    obtain ⟨hdropAhead, hdrop⟩ := expectWord_reads hdrop
    obtain ⟨hkindAhead, hkind⟩ := expectWord_reads hkind
    obtain ⟨named, hnamedAhead, hnamed, rfl⟩ := identifier_reads hname
    rw [halterAhead, hdropAhead, hkindAhead, hnamedAhead, hend]
    exact .altered halter hword htoken rfl hdrop hkind hnamed rfl
  · obtain ⟨drop, _, hdrop, hrest⟩ := bind_ok hrest
    obtain ⟨kind, _, hkind, hrest⟩ := bind_ok hrest
    obtain ⟨name, _, hname, hrest⟩ := bind_ok hrest
    obtain ⟨on, _, hon, hrest⟩ := bind_ok hrest
    obtain ⟨target, last, htarget, hrest⟩ := bind_ok hrest
    obtain ⟨hend, heq⟩ := hends hrest
    obtain ⟨rfl, rfl⟩ := Prod.mk.inj heq
    obtain ⟨hdropAhead, hdrop⟩ := expectWord_reads hdrop
    obtain ⟨hkindAhead, hkind⟩ := expectWord_reads hkind
    obtain ⟨named, hnamedAhead, hnamed, rfl⟩ := identifier_reads hname
    obtain ⟨honAhead, hon⟩ := expectWord_reads hon
    obtain ⟨token, htokenAhead, htoken, rfl⟩ := identifier_reads (tableName_ok htarget)
    rw [hdropAhead, hkindAhead, hnamedAhead, honAhead, htokenAhead, hend]
    exact .dropped hdrop hkind hnamed rfl hon htoken rfl

end Reading

section Statements

variable {settings : Settings} {tablePrefix sql : Text} {r : Restatement}

/-- A statement that drops a key of a table drops the index of that name. -/
theorem DropsKey.queries {table key : Text} {tokens : List Token}
    (h : DropsKey table key (Cursor.withoutSemicolon (significant tokens)))
    (htokens : tokenize sql = .ok tokens)
    (hrestate : (restate settings tablePrefix sql).outcome = .ok r)
    (hkind : r.kind = some .dropIndex) :
    r.queries = [Query.plain ("DROP INDEX " ++ quoteIdentifier (Index.fullNameOf table key))] := by
  obtain ⟨tokens', kind, queries, htokens', -, hqueries, rfl⟩ := restate_ok_iff.1 hrestate
  obtain rfl := Except.ok.inj (htokens.symm.trans htokens')
  obtain rfl : kind = .dropIndex := Option.some.inj hkind
  obtain ⟨statements, hstatements, hmap⟩ := Report.bind_ok.1 hqueries
  obtain ⟨⟨table', key'⟩, hread, hstatement⟩ := Report.bind_ok.1 (mapError_ok.1 hstatements)
  obtain rfl := Report.pure_ok.1 hstatement
  obtain rfl := Report.pure_ok.1 hmap
  obtain ⟨rfl, rfl⟩ := h.unique (Reading.droppedIndex_reads (Prod.ext hread rfl))
  rfl

/-- Statements that drop a key of a table drop the index of that name: those that are written with
quoted names, and all others that are restated as such. -/
def DropsName (settings : Settings) (table key name : Text) : Prop :=
  (∀ form ∈ droppingForms table key, ∀ tablePrefix : Text,
    (restate settings tablePrefix (written form)).outcome =
      .ok ⟨[Query.plain ("DROP INDEX " ++ quoteIdentifier name)], some .dropIndex, tablePrefix⟩) ∧
  ∀ (tablePrefix sql : Text) (tokens : List Token) (r : Restatement),
    tokenize sql = .ok tokens →
    DropsKey table key (Cursor.withoutSemicolon (significant tokens)) →
    (restate settings tablePrefix sql).outcome = .ok r → r.kind = some .dropIndex →
    r.queries = [Query.plain ("DROP INDEX " ++ quoteIdentifier name)]

theorem dropsName_iff {table key name : Text} :
    DropsName settings table key name ↔ name = Index.fullNameOf table key := by
  have hwritten : ∀ form ∈ droppingForms table key, ∀ tablePrefix : Text,
      (restate settings tablePrefix (written form)).outcome =
        .ok ⟨[Query.plain (Index.renderDrop table key)], some .dropIndex, tablePrefix⟩ := by
    intro form hform tablePrefix
    obtain ⟨tokens, htokens, hdrops⟩ := dropsIndex_written hform
    exact hdrops.restate htokens
  constructor
  · rintro ⟨hnamed, -⟩
    have hsame := (hnamed _ (.head _) []).symm.trans (hwritten _ (.head _) [])
    have hqueries := congrArg Restatement.queries (Except.ok.inj hsame)
    have hcommand := Command.sql.inj (congrArg Query.command (List.cons.inj hqueries).1)
    exact quoteIdentifier_injective (List.append_cancel_left hcommand)
  · rintro rfl
    exact ⟨hwritten, fun tablePrefix sql tokens r htokens h hrestate hkind =>
      h.queries htokens hrestate hkind⟩

/-- The index for a clause that declares the name of a key is the one that is dropped with the key,
just if the name is not empty and no index before it has got it, in whatever case. -/
theorem restate_createTable_declared (hrestate : (restate settings tablePrefix sql).outcome = .ok r)
    (hkind : r.kind = some .createTable) :
    ∃ (tokens front options : List Token) (head : TableHead) (named : List Index),
      tokenize sql = .ok tokens ∧ significant tokens = front ++ options ∧ IsTableHead head front ∧
      named.length = (keyClauses (splitTopLevel "," head.body)).length ∧
      (∃ lines : List Text, r.queries =
        Query.plain (Table.text head.temporary head.ifNotExists head.name lines) ::
          named.map fun index => Query.plain (index.text head.ifNotExists)) ∧
      ∀ i clause index declared, (keyClauses (splitTopLevel "," head.body))[i]? = some clause →
        named[i]? = some index → declaredName? clause = some declared →
        (DropsName settings head.name declared index.fullName ↔
          (declared ≠ [] ∨ (index.columns.head?.map IndexColumn.name).getD [] = []) ∧
            Text.lower declared ∉ Table.lowerNames (named.take i)) := by
  obtain ⟨tokens, statements, htokens, hrun, hqueries⟩ := restate_createTable_eq hrestate hkind
  obtain ⟨head, definitions, dropped, table, hhead, hread, htable, -, rfl⟩ := Table.restate_eq hrun
  obtain ⟨front, options, hfront, hishead, -⟩ := Reading.tableHead_reads (Prod.ext hhead rfl)
  obtain ⟨rest, hrest⟩ := Cursor.withoutSemicolon_prefix (significant tokens)
  obtain ⟨htemporary, hifNotExists, hsame, -, hkeys⟩ := Table.ofDefinitions_ok htable
  have hsignificant : significant tokens = front ++ (options ++ rest) := by
    rw [← hrest, ← List.append_assoc, ← hfront]
    rfl
  have hclauses := Table.readDefinitions_named hread
  rw [← hkeys] at hclauses
  obtain ⟨hlength, hapart, -⟩ := Table.distinctKeys_namedApart table.keys
  refine ⟨tokens, front, options ++ rest, head, Table.distinctKeys [] table.keys, htokens,
    hsignificant, hishead, hlength.trans hclauses.length_eq.symm, ⟨table.lines, ?_⟩, ?_⟩
  · rw [hqueries, Table.statements_eq_text, htemporary, hifNotExists, hsame, List.map_cons,
      List.map_map]
    rfl
  · intro i clause index declared hclause hindex hdeclared
    obtain ⟨hi, hclause⟩ := List.getElem?_eq_some_iff.1 hclause
    have hi' : i < table.keys.length := hclauses.length_eq ▸ hi
    obtain ⟨htableName, hname⟩ : table.keys[i].table = head.name ∧ table.keys[i].name =
        Index.nameFor (declaredName? (keyClauses (splitTopLevel "," head.body))[i])
          table.keys[i].columns := hclauses.get hi hi'
    rw [hclause, hdeclared] at hname
    obtain ⟨heq, hfree⟩ := hapart i _ index (List.getElem?_eq_getElem hi') hindex
    rw [dropsName_iff, ← htableName]
    exact Index.fullName_eq_iff heq hname hfree

end Statements

/-- Two keys of a table with names of their own. -/
theorem restate_createTable_declared_apart :
    ∃ settings r, Settings.load .builtIn = .ok settings ∧
      (restate settings [] "CREATE TABLE t (a int, b int, KEY k (a), UNIQUE KEY u (b))").outcome
        = .ok r ∧ r.kind = some .createTable ∧
      ∃ (head : TableHead) (named : List Index), named.length = 2 ∧
        named.length = (keyClauses (splitTopLevel "," head.body)).length ∧
        ∀ i clause index declared, (keyClauses (splitTopLevel "," head.body))[i]? = some clause →
          named[i]? = some index → declaredName? clause = some declared →
          (DropsName settings head.name declared index.fullName ↔
            (declared ≠ [] ∨ (index.columns.head?.map IndexColumn.name).getD [] = []) ∧
              Text.lower declared ∉ Table.lowerNames (named.take i)) := by
  obtain ⟨settings, hload, htest⟩ := exists_of_passes (show passes (fun settings => passes
      (fun r => decide (r.kind = some .createTable ∧ r.queries.length = 3)) (restate settings []
        "CREATE TABLE t (a int, b int, KEY k (a), UNIQUE KEY u (b))").outcome)
      (Settings.load .builtIn) = true by decide +kernel)
  obtain ⟨r, hrestate, htest⟩ := exists_of_passes htest
  obtain ⟨hkind, hqueries⟩ := of_decide_eq_true htest
  obtain ⟨tokens, front, options, head, named, -, -, -, hclauses, ⟨lines, hnamed⟩, hdrops⟩ :=
    restate_createTable_declared hrestate hkind
  have hlength : named.length = 2 := by simpa [hnamed] using hqueries
  exact ⟨settings, r, hload, hrestate, hkind, head, named, hlength, hclauses, hdrops⟩

/-- Of two keys that declare one name, the second is created under another name than the statement
for the key drops. -/
theorem restate_createTable_renamed :
    ∃ settings r, Settings.load .builtIn = .ok settings ∧
      (restate settings [] "CREATE TABLE t (a int, b int, KEY k (a), KEY k (b))").outcome = .ok r ∧
      r.queries.map (fun query => query.command.text) =
        ["CREATE TABLE \"t\" (\n    \"a\" integer,\n    \"b\" integer\n)".toList,
          "CREATE INDEX \"t__k\" ON \"t\" (a)", "CREATE INDEX \"t__k_2\" ON \"t\" (b)"] ∧
      DropsName settings "t" "k" "t__k" ∧ ¬ DropsName settings "t" "k" "t__k_2" := by
  obtain ⟨settings, hload, htest⟩ := exists_of_passes (show passes (fun settings => passes
      (fun r => decide (r.queries.map (fun query => query.command.text) =
        ["CREATE TABLE \"t\" (\n    \"a\" integer,\n    \"b\" integer\n)".toList,
          "CREATE INDEX \"t__k\" ON \"t\" (a)", "CREATE INDEX \"t__k_2\" ON \"t\" (b)"]))
        (restate settings [] "CREATE TABLE t (a int, b int, KEY k (a), KEY k (b))").outcome)
      (Settings.load .builtIn) = true by decide +kernel)
  obtain ⟨r, hrestate, htest⟩ := exists_of_passes htest
  exact ⟨settings, r, hload, hrestate, of_decide_eq_true htest, dropsName_iff.2 rfl, fun h =>
    absurd (dropsName_iff.1 h) (by decide)⟩

end Restate
