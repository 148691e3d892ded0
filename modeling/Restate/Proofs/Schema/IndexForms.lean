import Restate.Proofs.Schema.SeveralKeys
import Restate.Proofs.Schema.Yields

/-!
# Statements for an index

What the tokens of a statement are that adds an index to a table, creates a table with it or drops
it. A length of a column and a kind of index make no difference. Main statements: those that add an
index become the statement that creates it (`AddsIndex.restated`), and those that drop it the one
that drops it (`DropsIndex.restated`).
-/

namespace Restate

/-- A clause for an index in a new table, or behind the word that adds it. -/
inductive DefinesIndex (index : Index) : List Token → Prop where
  | clause {word : Token} {mark body : List Token} : MarksUnique index.unique mark →
      word.isWord ["KEY", "INDEX"] = true → NamesKey index.name index.columns body →
      DefinesIndex index (mark ++ word :: body)

/-- A statement that adds an index to a table. -/
inductive AddsIndex (index : Index) : List Token → Prop where
  | altered {alter table name add : Token} {clause : List Token} :
      alter.isWord ["ALTER"] = true → table.isWord ["TABLE"] = true → name.Quotes index.table →
      add.isWord ["ADD"] = true → DefinesIndex index clause →
      AddsIndex index (alter :: table :: name :: add :: clause)
  | created {create word name on table : Token} {mark kind list options : List Token} :
      create.isWord ["CREATE"] = true → MarksUnique index.unique mark →
      word.isWord ["INDEX"] = true → name.Quotes index.name → IsUsing kind →
      on.isWord ["ON"] = true → table.Quotes index.table → IsKeyList index.columns list →
      IsUsing options →
      AddsIndex index
        (create :: (mark ++ word :: name :: (kind ++ on :: table :: (list ++ options))))

theorem DefinesIndex.ne_nil {index : Index} {tokens : List Token} (h : DefinesIndex index tokens) :
    tokens ≠ [] := by
  cases h with
  | clause => simp

/-- A statement that creates a table and nothing else, with the parts of its definitions between
commas. -/
inductive CreatesTable (name : Text) (parts : List (List Token)) : List Token → Prop where
  | created {create word named : Token} {body group options : List Token} :
      create.isWord ["CREATE"] = true → word.isWord ["TABLE"] = true → named.Quotes name →
      IsGroup body group → splitTopLevel "," body = parts →
      (∀ t ∈ options, t.isWord Reading.tableSources = false) →
      CreatesTable name parts (create :: word :: named :: (group ++ options))

/-- A statement that drops the index of a key. -/
inductive DropsIndex (table key : Text) : List Token → Prop where
  | altered {alter word name drop kind named : Token} : alter.isWord ["ALTER"] = true →
      word.isWord ["TABLE"] = true → name.Quotes table → drop.isWord ["DROP"] = true →
      kind.isWord ["INDEX", "KEY"] = true → named.Quotes key →
      DropsIndex table key [alter, word, name, drop, kind, named]
  | dropped {drop kind named on name : Token} : drop.isWord ["DROP"] = true →
      kind.isWord ["INDEX"] = true → named.Quotes key → on.isWord ["ON"] = true →
      name.Quotes table → DropsIndex table key [drop, kind, named, on, name]

namespace Reading.Yields

variable {index : Index} {piece rest : List Token}

theorem alterTable {alter table name : Token} {named : Text}
    (halter : alter.isWord ["ALTER"] = true) (htable : table.isWord ["TABLE"] = true)
    (hname : name.Quotes named)
    (hrest : ∀ u ∈ rest.head?, u.isPunct "." = false) :
    Yields Reading.alterTable [alter, table, name] named rest := by
  refine cons (expectWord halter) (cons (expectWord htable) ?_)
  rw [← hname.2]
  exact tableName hname.isName hrest

/-- The statements that add an index are read as it, each by the reading for its kind. -/
theorem addedKey {alter table name add word : Token} {mark body : List Token}
    (hname : index.name ≠ []) (halter : alter.isWord ["ALTER"] = true)
    (htable : table.isWord ["TABLE"] = true) (htarget : name.Quotes index.table)
    (hadd : add.isWord ["ADD"] = true) (hmark : MarksUnique index.unique mark)
    (hword : word.isWord ["KEY", "INDEX"] = true)
    (hbody : NamesKey index.name index.columns body) :
    Yields Reading.addedKey (alter :: table :: name :: add :: (mark ++ word :: body)) index [] := by
  obtain ⟨named, target, unique, columns⟩ := index
  have hpoint := Token.not_isPunct_of_isWord hadd "."
  have halters : Yields Reading.alterTable [alter, table, name] target
      (add :: (mark ++ word :: body) ++ []) :=
    alterTable halter htable htarget (by simpa using hpoint)
  refine bind halters (cons (expectWord hadd) ?_)
  -- the word `UNIQUE` picks the branch, and both go on with the key
  cases hmark with
  | plain =>
      have hunique : word.isWord ["UNIQUE"] = false := Token.isWord_of_disjoint hword (by decide)
      exact declining (by simpa using hunique) (cons (expectWord hword) (key hname hbody))
  | unique hunique => exact accepting hunique (cons (accept hword) (key hname hbody))

theorem createdIndex {create word name on table : Token} {mark kind list options : List Token}
    (hcreate : create.isWord ["CREATE"] = true) (hmark : MarksUnique index.unique mark)
    (hword : word.isWord ["INDEX"] = true) (hname : name.Quotes index.name) (hkind : IsUsing kind)
    (hon : on.isWord ["ON"] = true) (htable : table.Quotes index.table)
    (hlist : IsKeyList index.columns list) (hoptions : IsUsing options) :
    Yields Reading.createdIndex
      (create :: (mark ++ word :: name :: (kind ++ on :: table :: (list ++ options)))) index
      [] := by
  obtain ⟨named, target, unique, columns⟩ := index
  obtain ⟨o, rfl, ho⟩ : ∃ o, o.isSome = unique ∧ Yields (acceptWord ["UNIQUE"]) mark o
      (word :: name :: (kind ++ on :: table :: (list ++ options))) :=
    marked hmark (by simpa using Token.isWord_of_disjoint hword (by decide))
  have hbehind : ∀ t ∈ (on :: table :: (list ++ options) ++ []).head?,
      t.isWord ["USING"] = false := by
    simpa using Token.isWord_of_disjoint hon (by decide)
  have hpoint : ∀ t ∈ (list ++ options ++ []).head?, t.isPunct "." = false := by
    intro t ht
    rw [List.append_assoc] at ht
    exact not_isPunct_of_isPunct (hlist.opens ht) (by decide)
  refine cons (expectWord hcreate) (bind (by simpa using ho) (cons (expectWord hword)
    (cons (identifier hname.isName) (bind (skipIndexKind hkind hbehind) (cons (expectWord hon)
    (cons (tableName htable.isName hpoint) (bind (keyList hlist)
    (last (skipIndexOptions hoptions) ?_))))))))
  rw [hname.2, htable.2]
  exact pure _

theorem droppedIndex {table key : Text} (h : DropsIndex table key piece) :
    Yields Reading.droppedIndex piece (table, key) [] := by
  cases h with
  | @altered alter word name drop kind named halter hword hname hdrop hkind hnamed =>
      have hpoint := Token.not_isPunct_of_isWord hdrop "."
      have halters :
          Yields Reading.alterTable [alter, word, name] table ([drop, kind, named] ++ []) :=
        alterTable halter hword hname (by simpa using hpoint)
      refine choosing (by simpa using halter) (bind halters (cons (expectWord hdrop)
        (cons (expectWord hkind) (cons (identifier hnamed.isName)
        (stay (pure _) (here fun _ => ?_))))))
      rw [hnamed.2]
      exact pure _
  | @dropped drop kind named on name hdrop hkind hnamed hon hname =>
      have halter : drop.isWord ["ALTER"] = false := Token.isWord_of_disjoint hdrop (by decide)
      refine avoiding (by simpa using halter) (cons (expectWord hdrop) (cons (expectWord hkind)
        (cons (identifier hnamed.isName) (cons (expectWord hon)
        (cons (tableName hname.isName (by simp)) (stay (pure _) (here fun _ => ?_)))))))
      rw [hnamed.2, hname.2]
      exact pure _

/-- A clause for the index is read as it. -/
theorem definition {types : Fields Text} {sql : Text} (hname : index.name ≠ [])
    (h : DefinesIndex index piece) :
    Yields (Reading.definition types sql index.table) piece (.key index) [] := by
  obtain ⟨named, target, unique, columns⟩ := index
  obtain @⟨word, mark, body, hmark, hword, hbody⟩ := h
  cases hmark with
  | plain =>
      have hother : ∀ {words : List Text}, (∀ w ∈ ["KEY".toList, "INDEX".toList], w ∉ words) →
          ∀ t ∈ (word :: body ++ []).head?, t.isWord words = false := by
        intro words hwords
        simpa using Token.isWord_of_disjoint hword hwords
      exact declining (hother (by decide)) (declining (hother (by decide))
        (declining (hother (by decide)) (accepting hword (last (key hname hbody) (pure _)))))
  | @unique mark hunique =>
      have hother : ∀ {words : List Text}, (∀ w ∈ ["UNIQUE".toList], w ∉ words) →
          ∀ t ∈ (mark :: word :: body ++ []).head?, t.isWord words = false := by
        intro words hwords
        simpa using Token.isWord_of_disjoint hunique hwords
      exact declining (hother (by decide)) (declining (hother (by decide))
        (accepting hunique (cons (accept hword) (last (key hname hbody) (pure _)))))

theorem skipWords {word : Text} {words : List Text}
    (h : ∀ t ∈ rest.head?, t.isWord [word] = false) :
    Yields (acceptWords (word :: words)) [] false rest := by
  intro passed
  have hbegins : beginsWith (word :: words) rest = false := by
    cases rest with
    | nil => rfl
    | cons t rest => rw [beginsWith, h t rfl, Bool.false_and]
  rw [acceptWords, if_neg (by simpa using hbegins)]
  rfl

theorem remaining : Yields Reading.remaining piece piece [] := by
  intro passed
  rw [Reading.remaining, List.append_nil, Cursor.skip, List.take_length, List.drop_length]

theorem tableHead {name : Text} {parts : List (List Token)} (h : CreatesTable name parts piece) :
    ∃ body, splitTopLevel "," body = parts ∧
      Yields Reading.tableHead piece ⟨false, false, name, body⟩ [] := by
  obtain @⟨create, word, named, body, group, options, hcreate, hword, hnamed, hgroup, hparts,
    hoptions⟩ := h
  have hnot : ∀ words, ∀ t ∈ (named :: (group ++ options) ++ []).head?, t.isWord words = false := by
    simpa using hnamed.not_isWord
  have hopens : ∀ t ∈ (group ++ options ++ []).head?, t.isPunct "(" = true := by
    obtain ⟨opening, closing, rfl, hopen, -⟩ := hgroup
    simpa using hopen
  have hfind : options.find? (·.isWord tableSources) = none := by
    simpa using hoptions
  refine ⟨body, hparts, cons (expectWord hcreate) (stay (decline ?_) (cons (expectWord hword)
    (stay (skipWords (hnot _)) (cons (tableName hnamed.isName ?_) (avoiding ?_
    (bind (parenthesized hgroup) (last remaining ?_)))))))⟩
  · simpa using Token.isWord_of_disjoint hword (by decide)
  · exact fun t ht => not_isPunct_of_isPunct (hopens t ht) (by decide)
  · exact fun t ht => Token.not_isWord_of_isPunct (hopens t ht) _
  · rw [hfind, hnamed.2]
    exact pure _

end Reading.Yields

theorem Cursor.exists_append_withoutSemicolon (tokens : List Token) :
    ∃ last, tokens = withoutSemicolon tokens ++ last ∧ ∀ t ∈ last, t.isPunct ";" = true := by
  unfold withoutSemicolon
  split
  · next t hlast =>
      split
      · next hmark =>
          refine ⟨[t], ?_, by simpa using hmark⟩
          obtain ⟨init, rfl⟩ := List.getLast?_eq_some_iff.1 hlast
          rw [List.dropLast_concat]
      · exact ⟨[], (List.append_nil _).symm, by simp⟩
  · exact ⟨[], (List.append_nil _).symm, by simp⟩

namespace Undivided

variable {separator : Text} {tokens : List Token} {t : Token}

theorem word {words : List Text} (ht : t.isWord words = true) (h : Undivided separator tokens) :
    Undivided separator (t :: tokens) :=
  .token (Token.not_isPunct_of_isWord ht _) (Token.not_isPunct_of_isWord ht _)
    (Token.not_isPunct_of_isWord ht _) h

theorem quoted {name : Text} (ht : t.Quotes name) (h : Undivided separator tokens) :
    Undivided separator (t :: tokens) :=
  .token (ht.not_isPunct _) (ht.not_isPunct _) (ht.not_isPunct _) h

theorem isUsing (h : IsUsing tokens) : Undivided separator tokens := by
  obtain rfl | ⟨word, value, rfl, hword, hvalue⟩ := h
  · exact nil
  · exact .word hword (.word hvalue nil)

theorem keyList {columns : List IndexColumn} (h : IsKeyList columns tokens) :
    Undivided separator tokens := by
  obtain ⟨inner, ⟨opening, closing, rfl, hopen, hclose, hinner⟩, -⟩ := h
  exact .group hopen hclose hinner .nil

theorem namesKey {name : Text} {columns : List IndexColumn} (h : NamesKey name columns tokens) :
    Undivided separator tokens := by
  obtain ⟨hname, hkind, hlist, hoptions⟩ := h
  exact .quoted hname ((isUsing hkind).append ((keyList hlist).append (isUsing hoptions)))

theorem marksUnique {unique : Bool} (h : MarksUnique unique tokens) :
    Undivided separator tokens := by
  cases h with
  | plain => exact nil
  | unique hword => exact .word hword nil

theorem definesIndex {index : Index} (h : DefinesIndex index tokens) :
    Undivided separator tokens := by
  cases h with
  | clause hmark hword hbody => exact (marksUnique hmark).append (.word hword (.namesKey hbody))

/-- Semicolons are no commas. -/
theorem semicolons (h : ∀ t ∈ tokens, t.isPunct ";" = true) : Undivided "," tokens := by
  induction tokens with
  | nil => exact nil
  | cons t tokens ih =>
      obtain ⟨ht, htokens⟩ := List.forall_mem_cons.1 h
      exact .token (not_isPunct_of_isPunct ht (by decide)) (not_isPunct_of_isPunct ht (by decide))
        (not_isPunct_of_isPunct ht (by decide)) (ih htokens)

end Undivided

namespace StatementKind

variable {words : List Text} {rest : List Token} {t : Token} {name : Text}

theorem leadingWords_append (limit : Nat) (front : List Token)
    (hwords : List.Forall₂ (fun (word : Text) t => t.isWord [word] = true) words front)
    (ht : t.kind.isBare = false) : leadingWords limit (front ++ t :: rest) = words.take limit := by
  have htake : (front ++ t :: rest).takeWhile (fun t => t.kind.isBare) = front ∧
      front.map Token.upper = words := by
    induction hwords with
    | nil => simp [ht]
    | cons hword _ ih =>
        obtain ⟨hbare, hupper⟩ := Token.isWord_iff.1 hword
        simp [hbare, ih, List.mem_singleton.1 hupper]
  rw [leadingWords, htake.1, List.map_take, htake.2]

/-- Before a name in backticks the words tell the kind of a statement. -/
theorem ofSignificant_of_words (front : List Token) {kind : StatementKind} {word : Text}
    (hwords : List.Forall₂ (fun (word : Text) t => t.isWord [word] = true) (word :: words) front)
    (hname : t.Quotes name) (hkind : ofWords? ((word :: words).take 4) = some kind)
    (hdefiner : (word :: words).take 4 ≠ ["CREATE".toList, "DEFINER"]) :
    ofSignificant (front ++ t :: rest) = .ok kind := by
  have hbare : t.kind.isBare = false := by rw [hname.1]; rfl
  have hleading : leadingWords 4 (front ++ t :: rest) = (word :: words).take 4 :=
    leadingWords_append 4 front hwords hbare
  obtain ⟨first, more, hfirst, -, rfl⟩ := List.forall₂_cons_left_iff.1 hwords
  rw [List.cons_append] at hleading ⊢
  rw [ofSignificant, if_pos (Token.isWord_iff.1 hfirst).1, decidingWords, hleading,
    if_neg hdefiner]
  dsimp only [bind, Except.bind]
  rw [hkind]

/-- What a statement does that alters one thing of a table is told by the words behind its name. -/
theorem ofSignificant_alter {alter table action target : Token} {more : List Token}
    (halter : alter.isWord ["ALTER"] = true) (htable : table.isWord ["TABLE"] = true)
    (hname : t.Quotes name) (hone : Undivided "," (action :: target :: more)) :
    ofSignificant (alter :: table :: t :: action :: target :: more) =
      if action.isWord ["ADD"] then ofAddition target
      else if action.isWord ["DROP"] && target.isWord ["INDEX", "KEY"] then .ok .dropIndex
      else .error (.refuse (.alterAction action.text)) := by
  have hbare : t.kind.isBare = false := by rw [hname.1]; rfl
  have hleading : leadingWords 4 (alter :: table :: t :: action :: target :: more) =
      ["ALTER".toList, "TABLE".toList] :=
    leadingWords_append 4 [alter, table] (.cons halter (.cons htable .nil)) hbare
  rw [ofSignificant, if_pos (Token.isWord_iff.1 halter).1, decidingWords, hleading,
    if_neg (by decide)]
  dsimp only [bind, Except.bind]
  rw [show ofWords? ["ALTER".toList, "TABLE".toList] = none by decide]
  dsimp only
  rw [if_pos (by rfl), ofAlter, htable, hone.splitTopLevel_eq]
  rfl

theorem ofAddition_key (h : t.isWord ["KEY", "INDEX"] = true) :
    ofAddition t = .ok .alterAddKey := by
  have hcolumn : t.isWord ["COLUMN"] = false := Token.isWord_of_disjoint h (by decide)
  rw [ofAddition, if_neg (ne_true_of_eq_false hcolumn), if_pos h]

theorem ofAddition_unique (h : t.isWord ["UNIQUE"] = true) :
    ofAddition t = .ok .alterAddUniqueKey := by
  have hcolumn : t.isWord ["COLUMN"] = false := Token.isWord_of_disjoint h (by decide)
  have hkey : t.isWord ["KEY", "INDEX"] = false := Token.isWord_of_disjoint h (by decide)
  rw [ofAddition, if_neg (ne_true_of_eq_false hcolumn), if_neg (ne_true_of_eq_false hkey),
    if_pos h]

end StatementKind

section Restated

variable {types : Fields Text} {sql : Text} {index : Index} {tokens : List Token}

theorem restateSchemaTokens_addedKey {kind : StatementKind}
    (hkind : kind = .alterAddKey ∨ kind = .alterAddUniqueKey)
    (h : Reading.addedKey.run tokens = .ok index) :
    (restateSchemaTokens types kind sql tokens).outcome = .ok [index.render false] := by
  have hreport : restateSchemaTokens types kind sql tokens =
      (do
        let index ← Report.ofExcept (Reading.addedKey.run tokens)
        return [index.render false] : Report (List Text)) := by
    rcases hkind with rfl | rfl
    · rfl
    · rfl
  rw [hreport, h]
  rfl

/-- A statement that adds an index is of one of three kinds, and becomes the statement that creates
the index. -/
theorem AddsIndex.restated (hname : index.name ≠ [])
    (h : AddsIndex index (Cursor.withoutSemicolon tokens)) :
    ∃ kind ∈ StatementKind.onSchema, StatementKind.ofSignificant tokens = .ok kind ∧
      (restateSchemaTokens types kind sql tokens).outcome = .ok [index.render false] := by
  -- the kind is told from all tokens, but the form is read without a last semicolon
  obtain ⟨last, htokens, hlast⟩ := Cursor.exists_append_withoutSemicolon tokens
  have hsemicolons := Undivided.semicolons hlast
  generalize hform : Cursor.withoutSemicolon tokens = form at h htokens
  cases h with
  | @altered alter table name add clause halter htable htarget hadd hclause =>
      -- without a comma outside parentheses the statement alters one thing
      have hone : Undivided "," (add :: clause ++ last) :=
        (Undivided.word hadd (.definesIndex hclause)).append hsemicolons
      obtain @⟨word, mark, body, hmark, hword, hbody⟩ := hclause
      have hread := Reading.Yields.addedKey hname halter htable htarget hadd hmark hword hbody
      rw [← hform] at hread
      have hrun := hread.run
      generalize index.unique = unique at hmark
      cases hmark with
      | plain =>
          refine ⟨.alterAddKey, by decide, ?_, restateSchemaTokens_addedKey (.inl rfl) hrun⟩
          rw [htokens]
          exact (StatementKind.ofSignificant_alter halter htable htarget hone).trans
            ((if_pos hadd).trans (StatementKind.ofAddition_key hword))
      | @unique unique hunique =>
          refine ⟨.alterAddUniqueKey, by decide, ?_,
            restateSchemaTokens_addedKey (.inr rfl) hrun⟩
          rw [htokens]
          exact (StatementKind.ofSignificant_alter halter htable htarget hone).trans
            ((if_pos hadd).trans (StatementKind.ofAddition_unique hunique))
  | @created create word name on table mark kind list options hcreate hmark hword hnamed hkind hon
      htable hlist hoptions =>
      have hread := Reading.Yields.createdIndex hcreate hmark hword hnamed hkind hon htable hlist
        hoptions
      rw [← hform] at hread
      have hrun := hread.run
      refine ⟨.createIndex, by decide, ?_, by rw [restateSchemaTokens, hrun]; rfl⟩
      rw [htokens]
      generalize index.unique = unique at hmark
      cases hmark with
      | plain =>
          exact StatementKind.ofSignificant_of_words [create, word]
            (.cons hcreate (.cons hword .nil)) hnamed (by decide) (by decide)
      | @unique unique hunique =>
          exact StatementKind.ofSignificant_of_words [create, unique, word]
            (.cons hcreate (.cons hunique (.cons hword .nil))) hnamed (by decide) (by decide)

/-- A statement that drops an index becomes the statement that drops the one of the table and the
key. -/
theorem DropsIndex.restated {table key : Text}
    (h : DropsIndex table key (Cursor.withoutSemicolon tokens)) :
    StatementKind.ofSignificant tokens = .ok .dropIndex ∧
      (restateSchemaTokens types .dropIndex sql tokens).outcome =
        .ok [Index.renderDrop table key] := by
  obtain ⟨last, htokens, hlast⟩ := Cursor.exists_append_withoutSemicolon tokens
  have hsemicolons := Undivided.semicolons hlast
  have hrun := Reading.Yields.run (Reading.Yields.droppedIndex h)
  refine ⟨?_, by rw [restateSchemaTokens, hrun]; rfl⟩
  generalize Cursor.withoutSemicolon tokens = form at h htokens
  rw [htokens]
  cases h with
  | @altered alter word name drop kind named halter hword hname hdrop hkind hnamed =>
      have hone : Undivided "," (drop :: kind :: named :: last) :=
        .word hdrop (.word hkind (.quoted hnamed hsemicolons))
      have hadd : drop.isWord ["ADD"] = false := Token.isWord_of_disjoint hdrop (by decide)
      refine (StatementKind.ofSignificant_alter halter hword hname hone).trans ?_
      rw [if_neg (ne_true_of_eq_false hadd), hdrop, hkind]
      rfl
  | @dropped drop kind named on name hdrop hkind hnamed hon hname =>
      exact StatementKind.ofSignificant_of_words [drop, kind]
        (.cons hdrop (.cons hkind .nil)) hnamed (by decide) (by decide)

end Restated

end Restate
