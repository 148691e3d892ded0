import Restate.Proofs.Schema.CreationText
import Restate.Proofs.Schema.KeyNames
import Restate.Proofs.Schema.SourceTypes

/-!
# New tables

What a statement that creates a table says is in its head, up to the parenthesis that closes the
definitions. Main statement: each definition is taken up, in order and once, by a line of the
statement that creates the table or by a statement of its own for an index, or a notice says that it
is left out; the indexes get names of their own, and what follows the definitions changes no
statement (`restate_createTable`).
-/

namespace Restate

/-- The head of a statement that creates a table, through the parenthesis that closes the
definitions. -/
inductive IsTableHead : TableHead → List Token → Prop where
  | head {create table name : Token} {temporary clause group body : List Token} :
      create.isWord ["CREATE"] = true →
      (temporary = [] ∨ ∃ t, temporary = [t] ∧ t.isWord ["TEMPORARY"] = true) →
      table.isWord ["TABLE"] = true →
      (clause = [] ∨
        List.Forall₂ (fun (word : Text) t => t.isWord [word] = true) ["IF", "NOT", "EXISTS"]
          clause) →
      name.isName → IsGroup body group →
      IsTableHead ⟨!temporary.isEmpty, !clause.isEmpty, name.value, body⟩
        (create :: temporary ++ table :: clause ++ name :: group)

namespace Reading

variable {c c' : Cursor}

theorem forall₂_of_beginsWith {words : List Text} {tokens : List Token}
    (h : beginsWith words tokens = true) :
    List.Forall₂ (fun word t => t.isWord [word] = true) words (tokens.take words.length) := by
  fun_induction beginsWith words tokens with
  | case1 => exact .nil
  | case2 => simp at h
  | case3 word words t tokens ih =>
      rw [Bool.and_eq_true] at h
      exact .cons h.1 (ih h.2)

theorem accept_isSome_reads {p : Token → Bool} {o : Option Token}
    (h : accept p c = (.ok o, c')) :
    ∃ piece, c.ahead = piece ++ c'.ahead ∧ (piece = [] ∨ ∃ t, piece = [t] ∧ p t = true) ∧
      o.isSome = !piece.isEmpty := by
  rcases accept_reads h with ⟨t, rfl, ht, hahead⟩ | ⟨rfl, rfl, -⟩
  · exact ⟨[t], hahead, .inr ⟨t, rfl, ht⟩, rfl⟩
  · exact ⟨[], rfl, .inl rfl, rfl⟩

theorem acceptWords_reads {word : Text} {words : List Text} {b : Bool}
    (h : acceptWords (word :: words) c = (.ok b, c')) :
    ∃ clause, c.ahead = clause ++ c'.ahead ∧ (clause = [] ∨
        List.Forall₂ (fun word t => t.isWord [word] = true) (word :: words) clause) ∧
      b = !clause.isEmpty := by
  obtain ⟨rfl, rfl⟩ := acceptWords_ok h
  cases hbegins : beginsWith (word :: words) c.ahead with
  | true =>
      have hwords := forall₂_of_beginsWith hbegins
      refine ⟨c.ahead.take (word :: words).length, by simp, .inr hwords, ?_⟩
      cases htake : c.ahead.take (word :: words).length with
      | nil =>
          rw [htake] at hwords
          cases hwords
      | cons t more => rfl
  | false => exact ⟨[], by simp, .inl rfl, rfl⟩

/-- Behind the head stands no word that makes a table out of something else. -/
theorem tableHead_reads {head : TableHead} (h : tableHead c = (.ok head, c')) :
    ∃ front options, c.ahead = front ++ options ∧ IsTableHead head front ∧
      ∀ t ∈ options, t.isWord tableSources = false := by
  obtain ⟨create, _, hcreate, hrest⟩ := bind_ok h
  obtain ⟨o, _, htemporary, hrest⟩ := bind_ok hrest
  obtain ⟨table, _, htable, hrest⟩ := bind_ok hrest
  obtain ⟨b, _, hwords, hrest⟩ := bind_ok hrest
  obtain ⟨name, last, hread, hrest⟩ := bind_ok hrest
  obtain ⟨_, _, hhere, hrest⟩ := bind_ok hrest
  obtain ⟨rfl, rfl⟩ := here_ok hhere
  split at hrest
  · obtain ⟨_, _, -, hfail⟩ := bind_ok hrest
    exact (fail_not_ok hfail).elim
  obtain ⟨body, behind, hbody, hrest⟩ := bind_ok hrest
  obtain ⟨options, _, hoptions, hrest⟩ := bind_ok hrest
  obtain rfl : behind.ahead = options := Except.ok.inj (congrArg Prod.fst hoptions)
  obtain ⟨hcreateAhead, hcreate⟩ := expectWord_reads hcreate
  obtain ⟨temporary, htemporaryAhead, htemporary, hsome⟩ := accept_isSome_reads htemporary
  obtain ⟨htableAhead, htable⟩ := expectWord_reads htable
  obtain ⟨clause, hclauseAhead, hclause, rfl⟩ := acceptWords_reads hwords
  obtain ⟨nameToken, hnameAhead, hname, rfl⟩ := identifier_reads (tableName_ok hread)
  obtain ⟨group, hgroup, hgroupAhead⟩ := parenthesized_reads hbody
  cases hsource : behind.ahead.find? (·.isWord tableSources) with
  | some option =>
      rw [hsource] at hrest
      exact (fail_not_ok hrest).elim
  | none =>
      rw [hsource] at hrest
      obtain ⟨rfl, -⟩ := pure_ok hrest
      rw [hsome]
      refine ⟨_, behind.ahead, ?_, .head hcreate htemporary htable hclause hname hgroup, ?_⟩
      · simp [hcreateAhead, htemporaryAhead, htableAhead, hclauseAhead, hnameAhead, hgroupAhead]
      · intro t ht
        simpa using List.find?_eq_none.1 hsource t ht

end Reading

/-- What a parenthesis encloses is found from where it opens. -/
theorem IsGroup.unique {inner inner' group group' more more' : List Token}
    (h : IsGroup inner group) (h' : IsGroup inner' group')
    (heq : group ++ more = group' ++ more') : inner = inner' := by
  obtain ⟨opening, closing, rfl, -, hclose, hinner⟩ := h
  obtain ⟨opening', closing', rfl, -, hclose', hinner'⟩ := h'
  have htail : inner ++ closing :: more = inner' ++ closing' :: more' := by
    simpa using (List.cons.inj heq).2
  have hat := hinner.closingFrom_one hclose more
  have hat' := hinner'.closingFrom_one hclose' more'
  rw [htail, hat'] at hat
  exact (List.append_inj htail (Option.some.inj hat).symm).1

/-- A word does not open a group. -/
theorem IsGroup.head_not_word {inner group more more' : List Token} {t : Token}
    (h : IsGroup inner group) (heq : group ++ more = t :: more') (words : List Text) :
    t.isWord words = false := by
  obtain ⟨opening, closing, rfl, hopen, -⟩ := h
  obtain ⟨rfl, -⟩ := List.cons.inj heq
  simp [Token.isWord, not_isBare_of_isPunct hopen]

/-- A word that may be missing is found from what must follow it. -/
theorem optional_unique {words others : List Text} {front front' more more' : List Token}
    {t t' : Token} (hdisjoint : ∀ word ∈ others, word ∉ words)
    (h : front = [] ∨ ∃ u, front = [u] ∧ u.isWord words = true)
    (h' : front' = [] ∨ ∃ u, front' = [u] ∧ u.isWord words = true)
    (ht : t.isWord others = true) (ht' : t'.isWord others = true)
    (heq : front ++ t :: more = front' ++ t' :: more') : front = front' ∧ more = more' := by
  have hclash : ∀ {u : Token}, u.isWord others = true → u.isWord words = true → False := by
    intro u hother hword
    simp [Token.isWord_of_disjoint hother hdisjoint] at hword
  rcases h with rfl | ⟨u, rfl, hu⟩
  · rcases h' with rfl | ⟨u', rfl, hu'⟩
    · exact ⟨rfl, (List.cons.inj heq).2⟩
    · obtain ⟨rfl, -⟩ := List.cons.inj heq
      exact (hclash ht hu').elim
  · rcases h' with rfl | ⟨u', rfl, hu'⟩
    · obtain ⟨rfl, -⟩ := List.cons.inj heq
      exact (hclash ht' hu).elim
    · obtain ⟨rfl, hrest⟩ := List.cons.inj heq
      exact ⟨rfl, (List.cons.inj hrest).2⟩

/-- A clause that may be missing is found from the name and the parenthesis behind it. -/
theorem clause_unique {w₁ w₂ w₃ : Text} {clause clause' body body' group group' more more' :
    List Token} {name name' : Token}
    (h : clause = [] ∨
      List.Forall₂ (fun (word : Text) t => t.isWord [word] = true) [w₁, w₂, w₃] clause)
    (h' : clause' = [] ∨
      List.Forall₂ (fun (word : Text) t => t.isWord [word] = true) [w₁, w₂, w₃] clause')
    (hgroup : IsGroup body group) (hgroup' : IsGroup body' group')
    (heq : clause ++ name :: (group ++ more) = clause' ++ name' :: (group' ++ more')) :
    clause = clause' ∧ name :: (group ++ more) = name' :: (group' ++ more') := by
  have hclash : ∀ {clause body group more more' : List Token} {name : Token},
      List.Forall₂ (fun (word : Text) t => t.isWord [word] = true) [w₁, w₂, w₃] clause →
      IsGroup body group → name :: (group ++ more) = clause ++ more' → False := by
    intro clause body group more more' name hwords hgroup heq
    obtain ⟨t₁, _, -, hbehind, rfl⟩ := List.forall₂_cons_left_iff.1 hwords
    obtain ⟨t₂, _, hword, -, rfl⟩ := List.forall₂_cons_left_iff.1 hbehind
    have hnot := hgroup.head_not_word (List.cons.inj heq).2 [w₂]
    simp [hword] at hnot
  rcases h with rfl | hwords
  · rcases h' with rfl | hwords'
    · exact ⟨rfl, heq⟩
    · exact (hclash hwords' hgroup heq).elim
  · rcases h' with rfl | hwords'
    · exact (hclash hwords hgroup' heq.symm).elim
    · have hlength := hwords.length_eq.symm.trans hwords'.length_eq
      exact List.append_inj heq hlength

/-- A statement has one head only. -/
theorem IsTableHead.unique {head head' : TableHead} {front front' options options' : List Token}
    (h : IsTableHead head front) (h' : IsTableHead head' front')
    (heq : front ++ options = front' ++ options') : head = head' := by
  obtain @⟨create, table, name, temporary, clause, group, body, -, htemporary, htable, hclause, -,
    hgroup⟩ := h
  obtain @⟨create', table', name', temporary', clause', group', body', -, htemporary', htable',
    hclause', -, hgroup'⟩ := h'
  have hrest : temporary ++ table :: (clause ++ name :: (group ++ options)) =
      temporary' ++ table' :: (clause' ++ name' :: (group' ++ options')) := by
    simpa using (List.cons.inj heq).2
  obtain ⟨rfl, hclauses⟩ :=
    optional_unique (by decide) htemporary htemporary' htable htable' hrest
  obtain ⟨rfl, hnames⟩ := clause_unique hclause hclause' hgroup hgroup' hclauses
  obtain ⟨rfl, hgroups⟩ := List.cons.inj hnames
  rw [hgroup.unique hgroup' hgroups]

/-- The statements for a new table, with what they are made of. -/
theorem Table.restate_eq {types : Fields Text} {sql : Text} {tokens : List Token}
    {statements : List Text} {notices : List Notice}
    (h : Table.restate types sql tokens = ⟨notices, .ok statements⟩) :
    ∃ head definitions dropped table,
      Reading.tableHead.run tokens = .ok head ∧
      Table.readDefinitions types sql head.name (splitTopLevel "," head.body) =
        ⟨dropped, .ok definitions⟩ ∧
      Table.ofDefinitions head definitions = .ok table ∧
      notices = dropped ++ table.numberingNotices ∧ statements = table.statements := by
  obtain ⟨head, n₁, n₂, hheadReport, h₂, hnotices₁⟩ := Report.bind_eq h
  obtain ⟨definitions, dropped, n₃, hdefinitions, h₃, hnotices₂⟩ := Report.bind_eq h₂
  obtain ⟨table, n₄, n₅, htableReport, h₄, hnotices₃⟩ := Report.bind_eq h₃
  obtain ⟨_, n₆, n₇, hnotes, hpure, hnotices₄⟩ := Report.bind_eq h₄
  obtain ⟨hhead, rfl⟩ := Report.ofExcept_eq hheadReport
  obtain ⟨htable, rfl⟩ := Report.ofExcept_eq htableReport
  obtain rfl := Report.notes_eq hnotes
  obtain ⟨rfl, rfl⟩ := Report.pure_eq hpure
  refine ⟨head, definitions, dropped, table, hhead, hdefinitions, htable, ?_, rfl⟩
  rw [hnotices₁, hnotices₂, hnotices₃, hnotices₄, List.append_nil]
  rfl

/-- What a table is made of. -/
theorem Table.ofDefinitions_ok {head : TableHead} {definitions : List Definition} {table : Table}
    (h : Table.ofDefinitions head definitions = .ok table) :
    table.temporary = head.temporary ∧ table.ifNotExists = head.ifNotExists ∧
      table.name = head.name ∧ table.columns = definitions.filterMap Definition.column? ∧
      table.keys = definitions.filterMap Definition.key? := by
  unfold Table.ofDefinitions at h
  dsimp only at h
  split at h
  · cases h
  · obtain ⟨primaryKey, -, rfl⟩ := except_map_ok.1 h
    exact ⟨rfl, rfl, rfl, rfl, rfl⟩

/-- The steps from a statement that creates a table to its queries. -/
theorem restate_createTable_eq {settings : Settings} {tablePrefix sql : Text} {r : Restatement}
    (hrestate : (restate settings tablePrefix sql).outcome = .ok r)
    (hkind : r.kind = some .createTable) :
    ∃ tokens statements, tokenize sql = .ok tokens ∧
      Table.restate settings.types sql (significant tokens) =
        ⟨(restate settings tablePrefix sql).notices, .ok statements⟩ ∧
      r.queries = statements.map Query.plain := by
  have hreport : restate settings tablePrefix sql =
      ⟨(restate settings tablePrefix sql).notices, .ok r⟩ := by
    rw [← hrestate]
  obtain ⟨⟨kind, queries⟩, n₁, n₂, hstatement, hpure, hnotices₁⟩ := Report.bind_eq hreport
  obtain ⟨⟨kind', tokens⟩, n₃, n₄, hreadReport, h₂, hnotices₂⟩ := Report.bind_eq hstatement
  obtain ⟨queries', n₅, n₆, hqueries, hpure', hnotices₃⟩ := Report.bind_eq h₂
  obtain ⟨rfl, rfl⟩ := Report.pure_eq hpure
  obtain ⟨hread, rfl⟩ := Report.ofExcept_eq hreadReport
  obtain ⟨hpair, rfl⟩ := Report.pure_eq hpure'
  obtain ⟨rfl, rfl⟩ := Prod.mk.inj hpair
  obtain rfl : kind = .createTable := Option.some.inj hkind
  obtain ⟨statements, n₇, n₈, hstatements, hpure'', hnotices₄⟩ := Report.bind_eq hqueries
  obtain ⟨rfl, rfl⟩ := Report.pure_eq hpure''
  refine ⟨tokens, statements, (readStatement_ok.1 hread).1, ?_, rfl⟩
  rw [hnotices₁, hnotices₂, hnotices₃, hnotices₄, List.append_nil, List.append_nil,
    List.nil_append, List.append_nil]
  exact Report.about_eq hstatements

theorem Cursor.withoutSemicolon_prefix (tokens : List Token) :
    Cursor.withoutSemicolon tokens <+: tokens := by
  unfold Cursor.withoutSemicolon
  split
  · split
    · exact List.dropLast_prefix tokens
    · exact List.prefix_rfl
  · exact List.prefix_rfl

/-- A semicolon at the end stands behind what ends in a parenthesis. -/
theorem Cursor.exists_withoutSemicolon_append {closing : Token}
    (hclose : closing.isPunct ")" = true) (front more : List Token) :
    ∃ rest, Cursor.withoutSemicolon (front ++ [closing] ++ more) = front ++ [closing] ++ rest := by
  rcases List.eq_nil_or_concat' more with rfl | ⟨init, last, rfl⟩
  · have hmark : closing.isPunct ";" = false := not_isPunct_of_isPunct hclose (by decide)
    refine ⟨[], ?_⟩
    unfold Cursor.withoutSemicolon
    rw [List.append_nil, List.getLast?_concat]
    dsimp only
    rw [hmark]
    rfl
  · unfold Cursor.withoutSemicolon
    rw [← List.append_assoc, List.getLast?_concat, List.dropLast_concat]
    dsimp only
    split
    · exact ⟨init, rfl⟩
    · exact ⟨init ++ [last], List.append_assoc _ _ _⟩

theorem IsTableHead.ends {head : TableHead} {front : List Token} (h : IsTableHead head front) :
    ∃ init closing, front = init ++ [closing] ∧ closing.isPunct ")" = true := by
  obtain @⟨create, table, name, temporary, clause, group, body, -, -, -, -, -, hgroup⟩ := h
  obtain ⟨opening, closing, rfl, -, hclose, -⟩ := hgroup
  exact ⟨create :: temporary ++ table :: clause ++ name :: opening :: body, closing, by simp,
    hclose⟩

/-- Of a statement that begins with a head, the head is that one. -/
theorem Reading.tableHead_of_front {head other : TableHead} {front more : List Token}
    (hhead : IsTableHead head front) (h : Reading.tableHead.run (front ++ more) = .ok other) :
    other = head := by
  obtain ⟨init, closing, rfl, hclose⟩ := hhead.ends
  obtain ⟨rest, hrest⟩ := Cursor.exists_withoutSemicolon_append hclose init more
  obtain ⟨front', options, hahead, hother, -⟩ := Reading.tableHead_reads (Prod.ext h rfl)
  exact hother.unique hhead (hahead.symm.trans hrest)

/-- What a statement that creates a table becomes. -/
theorem restate_createTable {settings : Settings} {tablePrefix sql : Text} {r : Restatement}
    (hrestate : (restate settings tablePrefix sql).outcome = .ok r)
    (hkind : r.kind = some .createTable) :
    ∃ (tokens front options : List Token) (head : TableHead) (definitions : List Definition)
      (table : Table) (named : List Index),
      tokenize sql = .ok tokens ∧ significant tokens = front ++ options ∧
      IsTableHead head front ∧
      List.Forall₂ (fun part definition =>
          definition.sort = sortOf (Cursor.withoutSemicolon part) ∧
            Declares settings.types sql head.name (Cursor.withoutSemicolon part) definition)
        (splitTopLevel "," head.body) definitions ∧
      (restate settings tablePrefix sql).notices =
        definitions.filterMap (Definition.notice? head.name) ++ table.numberingNotices ∧
      table.name = head.name ∧ table.columns = definitions.filterMap Definition.column? ∧
      (∃ primary : List Text, (primary = [] ∨ primary = [Table.keyLine table.primaryKey]) ∧
        r.queries =
          Query.plain (Table.text head.temporary head.ifNotExists head.name
            (table.columns.map (fun c => c.line ++ Column.numberedMark (table.isNumbered c)) ++
              primary)) ::
          named.map fun index => Query.plain (index.text head.ifNotExists)) ∧
      Table.NamedApart (definitions.filterMap Definition.key?) named ∧
      ∀ tablePrefix' sql' r' tokens' options',
        (restate settings tablePrefix' sql').outcome = .ok r' → r'.kind = some .createTable →
        tokenize sql' = .ok tokens' → significant tokens' = front ++ options' →
        r'.queries = r.queries := by
  obtain ⟨tokens, statements, htokens, hrun, hqueries⟩ := restate_createTable_eq hrestate hkind
  obtain ⟨head, definitions, dropped, table, hhead, hread, htable, hnotices, rfl⟩ :=
    Table.restate_eq hrun
  obtain ⟨front, options, hfront, hishead, -⟩ := Reading.tableHead_reads (Prod.ext hhead rfl)
  obtain ⟨rest, hrest⟩ := Cursor.withoutSemicolon_prefix (significant tokens)
  obtain ⟨hdeclares, rfl⟩ := Table.readDefinitions_declares hread
  obtain ⟨htemporary, hifNotExists, hname, hcolumns, hkeys⟩ := Table.ofDefinitions_ok htable
  have hsignificant : significant tokens = front ++ (options ++ rest) := by
    rw [← hrest, ← List.append_assoc, ← hfront]
    rfl
  refine ⟨tokens, front, options ++ rest, head, definitions, table,
    Table.distinctKeys [] table.keys, htokens, hsignificant, hishead, hdeclares, hnotices,
    hname, hcolumns, ⟨if table.primaryKey.isEmpty || table.numbered?.isSome then []
      else [Table.keyLine table.primaryKey], ?_, ?_⟩,
    hkeys ▸ Table.distinctKeys_namedApart table.keys, ?_⟩
  · split
    · exact .inl rfl
    · exact .inr rfl
  · rw [hqueries, Table.statements_eq_text, Table.lines_eq, htemporary, hifNotExists, hname,
      List.map_cons, List.map_map]
    rfl
  · intro tablePrefix' sql' r' tokens' options' hrestate' hkind' htokens' hsignificant'
    obtain ⟨tokens'', statements', htokens'', hrun', hqueries'⟩ :=
      restate_createTable_eq hrestate' hkind'
    obtain rfl := Except.ok.inj (htokens'.symm.trans htokens'')
    obtain ⟨head', definitions', dropped', table', hhead', hread', htable', -, rfl⟩ :=
      Table.restate_eq hrun'
    rw [hsignificant'] at hhead'
    obtain rfl := Reading.tableHead_of_front hishead hhead'
    rw [hqueries, hqueries', Table.statements_of_tokens hread' hread htable' htable]

/-- Three keys of one name in different case get three names, and a full-text key is left out. -/
theorem restate_createTable_keys :
    ∃ settings r, Settings.load .builtIn = .ok settings ∧
      (restate settings [] "CREATE TABLE IF NOT EXISTS t (a INT, KEY (a), UNIQUE KEY a_2 (a DESC),
        CONSTRAINT c UNIQUE A (`b`), b VARCHAR(9), FULLTEXT KEY (b)) ENGINE=InnoDB;").outcome
        = .ok r ∧ r.kind = some .createTable ∧ r.queries.length = 4 ∧
      ∃ (head : TableHead) (definitions : List Definition) (lines : List Text)
        (named : List Index),
        r.queries = Query.plain (Table.text head.temporary head.ifNotExists head.name lines) ::
          named.map (fun index => Query.plain (index.text head.ifNotExists)) ∧
        Table.NamedApart (definitions.filterMap Definition.key?) named ∧ named.length = 3 := by
  obtain ⟨settings, hload, htest⟩ := exists_of_passes (show passes (fun settings => passes
      (fun r => decide (r.kind = some .createTable ∧ r.queries.length = 4)) (restate settings []
        "CREATE TABLE IF NOT EXISTS t (a INT, KEY (a), UNIQUE KEY a_2 (a DESC),
        CONSTRAINT c UNIQUE A (`b`), b VARCHAR(9), FULLTEXT KEY (b)) ENGINE=InnoDB;").outcome)
      (Settings.load .builtIn) = true by decide +kernel)
  obtain ⟨r, hrestate, htest⟩ := exists_of_passes htest
  obtain ⟨hkind, hlength⟩ := of_decide_eq_true htest
  obtain ⟨tokens, front, options, head, definitions, table, named, -, -, -, -, -, -, -,
    ⟨primary, -, hqueries⟩, hnamed, -⟩ := restate_createTable hrestate hkind
  refine ⟨settings, r, hload, hrestate, hkind, hlength, head, definitions, _, named, hqueries,
    hnamed, ?_⟩
  simpa [hqueries] using hlength

end Restate
