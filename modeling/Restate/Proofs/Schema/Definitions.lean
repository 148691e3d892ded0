import Restate.Proofs.Schema.KeyClauses

/-!
# Definitions of a new table

What stands between two commas of a new table is a column, a primary key, a key, or a key that is
left out, and the word it begins with tells which. Main statement: a definition that is read is what
its words say (`Reading.definition_reads`).
-/

namespace Restate

/-- What a definition may be. -/
inductive DefinitionSort where
  | column
  | primaryKey
  | key
  | dropped
  deriving DecidableEq

def Definition.sort : Definition → DefinitionSort
  | .column _ => .column
  | .primaryKey _ => .primaryKey
  | .key _ => .key
  | .dropped _ => .dropped

/-- The tokens behind `CONSTRAINT` and the name that may follow it. -/
def behindConstraint : List Token → List Token
  | [] => []
  | t :: rest =>
    if t.isWord ["CONSTRAINT"] then
      if rest.head?.any (·.isWord Reading.constraintKinds) then rest else rest.tail
    else t :: rest

/-- What a definition is, by the first of its words that does not name it. -/
def sortOf (tokens : List Token) : DefinitionSort :=
  let word := (behindConstraint tokens).head?
  if word.any (·.isWord ["PRIMARY"]) then .primaryKey
  else if word.any (·.isWord ["UNIQUE", "KEY", "INDEX"]) then .key
  else if word.any (·.isWord ["FULLTEXT", "SPATIAL"]) then .dropped
  else .column

/-- `CONSTRAINT` with a name, either of which may be missing. -/
inductive IsConstraint : List Token → Prop where
  | missing : IsConstraint []
  | unnamed {word : Token} : word.isWord ["CONSTRAINT"] = true → IsConstraint [word]
  | named {word name : Token} : word.isWord ["CONSTRAINT"] = true → name.isName →
      name.isWord Reading.constraintKinds = false → IsConstraint [word, name]

/-- What the tokens of a definition declare. -/
inductive Declares (types : Fields Text) (sql table : Text) : List Token → Definition → Prop where
  | column {first : Token} {rest : List Token} {column : Column} : first.isName →
      column.name = first.value →
      (Reading.column types sql ⟨[], first :: rest⟩).1 = .ok column →
      Declares types sql table (first :: rest) (.column column)
  | primaryKey {constraint kind list options : List Token} {primary word : Token}
      {columns : List IndexColumn} : IsConstraint constraint → primary.isWord ["PRIMARY"] = true →
      word.isWord ["KEY"] = true → IsIndexKind kind → IsKeyList columns list →
      IndexOptions options →
      Declares types sql table (constraint ++ primary :: word :: kind ++ list ++ options)
        (.primaryKey (columns.map IndexColumn.name))
  | uniqueKey {constraint word body : List Token} {unique : Token} {index : Index} :
      IsConstraint constraint → unique.isWord ["UNIQUE"] = true →
      (word = [] ∨ ∃ w, word = [w] ∧ w.isWord ["KEY", "INDEX"] = true) →
      IsKey table true body index →
      Declares types sql table (constraint ++ unique :: word ++ body) (.key index)
  | key {word : Token} {body : List Token} {index : Index} :
      word.isWord ["KEY", "INDEX"] = true → IsKey table false body index →
      Declares types sql table (word :: body) (.key index)
  | dropped {word : Token} {rest : List Token} : word.isWord ["FULLTEXT", "SPATIAL"] = true →
      Declares types sql table (word :: rest) (.dropped word.upper)

namespace Token

theorem isWord_iff {t : Token} {words : List Text} :
    t.isWord words = true ↔ t.kind.isBare = true ∧ t.upper ∈ words := by
  simp [isWord]

/-- A word is not one of others. -/
theorem isWord_of_disjoint {t : Token} {words others : List Text} (h : t.isWord words = true)
    (hdisjoint : ∀ word ∈ words, word ∉ others) : t.isWord others = false := by
  rw [← Bool.not_eq_true, isWord_iff]
  exact fun hothers => hdisjoint _ (isWord_iff.1 h).2 hothers.2

theorem isWord_append (t : Token) (words others : List Text) :
    t.isWord (words ++ others) = (t.isWord words || t.isWord others) := by
  simp [isWord, Bool.and_or_distrib_left]

end Token

theorem Column.name_foldl_set (clauses : List ColumnClause) (column : Column) :
    (clauses.foldl Column.set column).name = column.name := by
  induction clauses generalizing column with
  | nil => rfl
  | cons clause clauses ih =>
      rw [List.foldl_cons, ih]
      cases clause with
      | nullable | default | autoIncrement | primaryKey | unique | omitted => rfl

namespace Reading

variable {c c' : Cursor} {α : Type}

theorem nextIs_eq (c : Cursor) (p : Token → Bool) : c.nextIs p = c.ahead.head?.any p := by
  unfold Cursor.nextIs Cursor.next?
  cases c.ahead.head? with
  | none => rfl
  | some t => rfl

theorem constraintName_reads {u : Unit} (h : constraintName c = (.ok u, c')) :
    (c' = c ∨ ∃ name, name.isName ∧ name.isWord constraintKinds = false ∧
        c.ahead = name :: c'.ahead) ∧
      c'.ahead.head?.any (·.isWord constraintKinds) = true := by
  have hkind : ∀ {c : Cursor}, (do
      if !(← here).nextIs (·.isWord constraintKinds) then fail .constraintDefinition : Reading Unit)
        c = (.ok u, c') → c' = c ∧ c.ahead.head?.any (·.isWord constraintKinds) = true := by
    intro c h
    obtain ⟨_, _, hhere, hrest⟩ := bind_ok h
    obtain ⟨rfl, rfl⟩ := here_ok hhere
    split at hrest
    · exact (fail_not_ok hrest).elim
    · next hnext =>
        obtain ⟨-, rfl⟩ := pure_ok hrest
        rw [← nextIs_eq]
        exact ⟨rfl, by simpa using hnext⟩
  obtain ⟨_, _, hhere, hrest⟩ := bind_ok h
  obtain ⟨rfl, rfl⟩ := here_ok hhere
  split at hrest
  · next hnext =>
      obtain ⟨_, middle, hname, hrest⟩ := bind_ok hrest
      obtain ⟨rfl, hword⟩ := hkind hrest
      obtain ⟨name, hahead, hname, -⟩ := identifier_reads hname
      rw [nextIs_eq, hahead] at hnext
      exact ⟨.inr ⟨name, hname, by simpa using hnext, hahead⟩, hword⟩
  · obtain ⟨rfl, hword⟩ := hkind hrest
    exact ⟨.inl rfl, hword⟩

/-- What a definition is read from stands behind its name. -/
theorem constraint_reads {x : Reading α} {a : α}
    (h : (do
      if (← acceptWord ["CONSTRAINT"]).isSome then constraintName
      x) c = (.ok a, c')) :
    ∃ constraint last, IsConstraint constraint ∧ c.ahead = constraint ++ last.ahead ∧
      behindConstraint c.ahead = last.ahead ∧
      (constraint = [] ∧ last = c ∨ last.ahead.head?.any (·.isWord constraintKinds) = true) ∧
      x last = (.ok a, c') := by
  obtain ⟨o, middle, ho, hrest⟩ := bind_ok h
  rcases accept_reads ho with ⟨word, rfl, hword, hahead⟩ | ⟨rfl, rfl, hnone⟩
  · obtain ⟨_, last, hname, hx⟩ := bind_ok hrest
    obtain ⟨hlast, hkind⟩ := constraintName_reads hname
    rcases hlast with rfl | ⟨name, hname, hother, hmiddle⟩
    · refine ⟨[word], last, .unnamed hword, hahead, ?_, .inr hkind, hx⟩
      rw [hahead, behindConstraint, if_pos hword, if_pos hkind]
    · refine ⟨[word, name], last, .named hword hname hother, by rw [hahead, hmiddle]; rfl, ?_,
        .inr hkind, hx⟩
      rw [hahead, hmiddle, behindConstraint, if_pos hword, if_neg (by simp [hother])]
      rfl
  · refine ⟨[], middle, .missing, rfl, ?_, .inl ⟨rfl, rfl⟩, hrest⟩
    cases hahead : middle.ahead with
    | nil => rfl
    | cons t rest =>
        rw [behindConstraint, if_neg]
        simpa using hnone t (by simp [hahead])

/-- A column begins with its name. -/
theorem column_reads {types : Fields Text} {sql : Text} {column : Column}
    (h : Reading.column types sql c = (.ok column, c')) :
    ∃ first rest, c.ahead = first :: rest ∧ first.isName ∧ column.name = first.value := by
  obtain ⟨name, middle, hname, hrest⟩ := bind_ok h
  obtain ⟨span, _, hspan, hrest⟩ := bind_ok hrest
  obtain ⟨clauses, _, hclauses, hrest⟩ := bind_ok hrest
  obtain ⟨rfl, rfl⟩ := pure_ok hrest
  obtain ⟨first, hahead, hfirst, rfl⟩ := identifier_reads hname
  exact ⟨first, middle.ahead, hahead, hfirst, Column.name_foldl_set _ _⟩

/-- What no word for a key introduces is left out or a column. -/
theorem columnDefinition_reads {types : Fields Text} {sql : Text} {definition : Definition}
    (h : columnDefinition types sql c = (.ok definition, c')) :
    ∃ t rest, c.ahead = t :: rest ∧
      (t.isWord ["FULLTEXT", "SPATIAL"] = true ∧ definition = .dropped t.upper ∨
        t.isWord ["FULLTEXT", "SPATIAL"] = false ∧ t.isWord ["FOREIGN", "CHECK"] = false ∧
          ∃ column, definition = .column column ∧ t.isName ∧ column.name = t.value ∧
            (Reading.column types sql c).1 = .ok column) := by
  obtain ⟨_, _, hhere, hrest⟩ := bind_ok h
  obtain ⟨rfl, rfl⟩ := here_ok hhere
  cases hahead : c.ahead with
  | nil =>
      rw [Cursor.next?, hahead] at hrest
      simp [lift] at hrest
  | cons t rest =>
      refine ⟨t, rest, rfl, ?_⟩
      rw [Cursor.next?, hahead] at hrest
      dsimp only [List.head?_cons] at hrest
      split at hrest
      · next hdropped =>
          obtain ⟨rfl, rfl⟩ := pure_ok hrest
          exact .inl ⟨hdropped, rfl⟩
      · next hdropped =>
          split at hrest
          · exact (fail_not_ok hrest).elim
          · next hforeign =>
              obtain ⟨column, _, hread, hrest⟩ := bind_ok hrest
              obtain ⟨rfl, rfl⟩ := pure_ok hrest
              obtain ⟨first, more, heq, hname, hvalue⟩ := column_reads hread
              obtain ⟨rfl, -⟩ := List.cons.inj (hahead.symm.trans heq)
              exact .inr ⟨Bool.eq_false_iff.2 hdropped, Bool.eq_false_iff.2 hforeign, column, rfl,
                hname, hvalue, by rw [hread]⟩

section Introduced

variable {types : Fields Text} {sql table : Text} {constraint : List Token}
  {definition : Definition}

/-- Behind `PRIMARY` stands the rest of a primary key. -/
theorem primaryKey_reads {primary : Token} (hconstraint : IsConstraint constraint)
    (hprimary : primary.isWord ["PRIMARY"] = true)
    (h : (do
      let _ ← expectWord ["KEY"]
      skipIndexKind
      let columns ← keyList
      skipIndexOptions
      return .primaryKey (columns.map IndexColumn.name) : Reading Definition) c =
        (.ok definition, c')) :
    definition.sort = .primaryKey ∧
      Declares types sql table (constraint ++ primary :: c.ahead) definition := by
  obtain ⟨word, _, hword, hrest⟩ := bind_ok h
  obtain ⟨_, _, hkind, hrest⟩ := bind_ok hrest
  obtain ⟨columns, _, hcolumns, hrest⟩ := bind_ok hrest
  obtain ⟨_, _, hoptions, hrest⟩ := bind_ok hrest
  obtain ⟨rfl, rfl⟩ := pure_ok hrest
  obtain ⟨hwordAhead, hword⟩ := expectWord_reads hword
  obtain ⟨kind, hkind, hkindAhead⟩ := skipIndexKind_reads hkind
  obtain ⟨first, more, list, rfl, hlist, hlistAhead⟩ := keyList_reads hcolumns
  refine ⟨rfl, ?_⟩
  rw [hwordAhead, hkindAhead, hlistAhead]
  simpa using @Declares.primaryKey types sql table _ _ _ _ _ _ _ hconstraint hprimary hword
    hkind hlist (skipIndexOptions_reads hoptions)

/-- Behind `UNIQUE` stands the rest of a unique key. -/
theorem uniqueKey_reads {unique : Token} (hconstraint : IsConstraint constraint)
    (hunique : unique.isWord ["UNIQUE"] = true)
    (h : (do
      let _ ← acceptWord ["KEY", "INDEX"]
      return .key (← key table true) : Reading Definition) c = (.ok definition, c')) :
    definition.sort = .key ∧
      Declares types sql table (constraint ++ unique :: c.ahead) definition := by
  obtain ⟨o, _, haccept, hrest⟩ := bind_ok h
  obtain ⟨index, _, hindex, hrest⟩ := bind_ok hrest
  obtain ⟨rfl, rfl⟩ := pure_ok hrest
  refine ⟨rfl, ?_⟩
  rcases accept_reads haccept with ⟨word, rfl, hword, hahead⟩ | ⟨rfl, rfl, -⟩
  · rw [hahead]
    simpa using @Declares.uniqueKey types sql _ _ _ _ _ _ hconstraint hunique
      (.inr ⟨word, rfl, hword⟩) (key_reads hindex)
  · simpa using @Declares.uniqueKey types sql _ _ _ _ _ _ hconstraint hunique (.inl rfl)
      (key_reads hindex)

/-- Where neither a primary key nor another key begins, the sort is that of what is left. -/
theorem columnDefinition_declares {tokens : List Token} {t : Token} {rest : List Token}
    (hahead : tokens = t :: rest)
    (h : t.isWord ["FULLTEXT", "SPATIAL"] = true ∧ definition = .dropped t.upper ∨
      t.isWord ["FULLTEXT", "SPATIAL"] = false ∧ t.isWord ["FOREIGN", "CHECK"] = false ∧
        ∃ column, definition = .column column ∧ t.isName ∧ column.name = t.value ∧
          (Reading.column types sql ⟨[], tokens⟩).1 = .ok column) :
    definition.sort =
        (if t.isWord ["FULLTEXT", "SPATIAL"] then DefinitionSort.dropped else .column) ∧
      Declares types sql table tokens definition := by
  subst hahead
  rcases h with ⟨hdropped, rfl⟩ | ⟨hdropped, -, column, rfl, hname, hvalue, hread⟩
  · exact ⟨(if_pos hdropped).symm, .dropped hdropped⟩
  · exact ⟨(if_neg (ne_true_of_eq_false hdropped)).symm, .column hname hvalue hread⟩

end Introduced

/-- A definition is what its words say. -/
theorem definition_reads {types : Fields Text} {sql table : Text} {tokens : List Token}
    {definition : Definition}
    (h : Reading.definition types sql table ⟨[], tokens⟩ = (.ok definition, c')) :
    definition.sort = sortOf tokens ∧ Declares types sql table tokens definition := by
  unfold Reading.definition at h
  obtain ⟨constraint, last, hconstraint, htokens, hbehind, hlast, hdefinition⟩ :=
    constraint_reads h
  dsimp only at htokens hbehind
  unfold sortOf
  rw [hbehind]
  dsimp only
  -- without a word for it, a constraint may not begin here
  have hstart : ∀ t ∈ last.ahead.head?, t.isWord constraintKinds = false →
      constraint = [] ∧ last = ⟨[], tokens⟩ := by
    intro t ht hkind
    refine hlast.resolve_right ?_
    rw [Option.mem_def.1 ht]
    simp [hkind]
  obtain ⟨o, middle, haccept, hclause⟩ := bind_ok hdefinition
  rcases accept_reads haccept with ⟨primary, rfl, hprimary, hahead⟩ | ⟨rfl, rfl, hnotPrimary⟩
  · rw [if_pos Option.isSome_some] at hclause
    rw [htokens, hahead, if_pos (by simpa using hprimary)]
    exact primaryKey_reads hconstraint hprimary hclause
  obtain ⟨o, middle, haccept, hkeys⟩ := bind_ok hclause
  rcases accept_reads haccept with ⟨unique, rfl, hunique, hahead⟩ | ⟨rfl, rfl, hnotUnique⟩
  · have hsort : unique.isWord ["UNIQUE", "KEY", "INDEX"] = true := by
      rw [← List.singleton_append, Token.isWord_append, hunique]
      rfl
    have hother := hnotPrimary unique (by rw [hahead]; rfl)
    rw [htokens, hahead, if_neg (by simpa using hother), if_pos (by simpa using hsort)]
    rw [if_pos Option.isSome_some] at hkeys
    exact uniqueKey_reads hconstraint hunique hkeys
  obtain ⟨o, middle, haccept, hcolumn⟩ := bind_ok hkeys
  rcases accept_reads haccept with ⟨word, rfl, hword, hahead⟩ | ⟨rfl, rfl, hnotKey⟩
  · obtain ⟨index, _, hindex, hrest⟩ := bind_ok hcolumn
    obtain ⟨rfl, rfl⟩ := pure_ok hrest
    have hsort : word.isWord ["UNIQUE", "KEY", "INDEX"] = true := by
      rw [← List.singleton_append, Token.isWord_append, hword, Bool.or_true]
    have hother := hnotPrimary word (by rw [hahead]; rfl)
    have hkind : word.isWord constraintKinds = false :=
      Token.isWord_of_disjoint hword (by decide)
    obtain ⟨rfl, -⟩ := hstart word (by rw [hahead]; rfl) hkind
    rw [htokens, hahead, if_neg (by simpa using hother), if_pos (by simpa using hsort)]
    exact ⟨rfl, .key hword (key_reads hindex)⟩
  obtain ⟨t, rest, hahead, hcases⟩ := columnDefinition_reads hcolumn
  have hnext : middle.ahead.head? = some t := by rw [hahead]; rfl
  have hother := hnotPrimary t hnext
  have hsort : t.isWord ["UNIQUE", "KEY", "INDEX"] = false := by
    rw [← List.singleton_append, Token.isWord_append, hnotUnique t hnext, hnotKey t hnext]
    rfl
  have hkind : t.isWord constraintKinds = false := by
    rcases hcases with ⟨hdropped, -⟩ | ⟨-, hforeign, -⟩
    · exact Token.isWord_of_disjoint hdropped (by decide)
    · rw [constraintKinds, ← List.singleton_append, Token.isWord_append, hother,
        ← List.singleton_append, Token.isWord_append, hnotUnique t hnext]
      simpa using hforeign
  obtain ⟨-, rfl⟩ := hstart t hnext hkind
  rw [hnext, if_neg (by simpa using hother), if_neg (by simpa using hsort), Option.any_some]
  exact columnDefinition_declares hahead hcases

end Reading

/-- The notice about a definition that is left out. -/
def Definition.notice? (table : Text) : Definition → Option Notice
  | .dropped word => some (.droppedKey word table)
  | _ => none

namespace Table

variable {types : Fields Text} {sql table : Text} {parts : List (List Token)}
  {definitions : List Definition} {notices : List Notice}

/-- The first definition is read by itself, and then the others. -/
theorem readDefinitions_cons {part : List Token}
    (h : readDefinitions types sql table (part :: parts) = ⟨notices, .ok definitions⟩) :
    ∃ definition more after, (Reading.definition types sql table).run part = .ok definition ∧
      readDefinitions types sql table parts = ⟨after, .ok more⟩ ∧
      definitions = definition :: more ∧
      notices = (definition.notice? table).toList ++ after := by
  rw [readDefinitions] at h
  split at h
  · cases h
  · obtain ⟨definition, before, after, hreport, hbehind, rfl⟩ := Report.bind_eq h
    obtain ⟨rfl, hread⟩ := Report.mk.inj hreport
    have hlater : ∀ {later : List Notice}, (do
        return definition :: (← readDefinitions types sql table parts)) =
          (⟨later, .ok definitions⟩ : Report (List Definition)) →
        ∃ more, readDefinitions types sql table parts = ⟨later, .ok more⟩ ∧
          definitions = definition :: more := by
      intro later h
      obtain ⟨more, before, last, hmore, hpure, rfl⟩ := Report.bind_eq h
      obtain ⟨rfl, hdefinitions⟩ := Report.mk.inj hpure
      rw [List.append_nil]
      exact ⟨more, hmore, (Except.ok.inj hdefinitions).symm⟩
    cases definition with
    | dropped word =>
        obtain ⟨_, own, later, hown, hrest, rfl⟩ := Report.bind_eq hbehind
        obtain ⟨rfl, -⟩ := Report.mk.inj hown
        obtain ⟨more, hmore, rfl⟩ := hlater hrest
        exact ⟨_, more, later, hread, hmore, rfl, rfl⟩
    | column | primaryKey | key =>
        obtain ⟨more, hmore, rfl⟩ := hlater hbehind
        exact ⟨_, more, after, hread, hmore, rfl, rfl⟩

/-- The definitions are what the parts declare, and each that is left out has a notice. -/
theorem readDefinitions_declares
    (h : readDefinitions types sql table parts = ⟨notices, .ok definitions⟩) :
    List.Forall₂ (fun part definition =>
        definition.sort = sortOf (Cursor.withoutSemicolon part) ∧
          Declares types sql table (Cursor.withoutSemicolon part) definition) parts definitions ∧
      notices = definitions.filterMap (Definition.notice? table) := by
  induction parts generalizing definitions notices with
  | nil =>
      cases h
      exact ⟨.nil, rfl⟩
  | cons part parts ih =>
      obtain ⟨definition, more, after, hread, hmore, rfl, rfl⟩ := readDefinitions_cons h
      obtain ⟨hparts, rfl⟩ := ih hmore
      refine ⟨.cons (Reading.definition_reads (Prod.ext hread rfl)) hparts, ?_⟩
      cases hnotice : definition.notice? table with
      | none => rw [List.filterMap_cons_none hnotice]; rfl
      | some notice => rw [List.filterMap_cons_some hnotice]; rfl

end Table

end Restate
