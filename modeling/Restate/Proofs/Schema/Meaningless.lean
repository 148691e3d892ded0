import Restate.Proofs.Schema.Faults

/-!
# Definitions without a meaning

Two definitions of a new table are neither read nor refused: a lone semicolon, and a column that
comes to a default without a value. Main statement: restating a new table fails otherwise than by a
refusal just if it comes to such a definition (`Table.restate_refusing`, `Table.restate_faults`),
and no other schema statement does (`restateSchemaTokens_refusing`).
-/

namespace Restate

/-- Words a key or a check begins with. -/
def keyWords : List Text :=
  ["PRIMARY", "UNIQUE", "KEY", "INDEX", "FULLTEXT", "SPATIAL", "FOREIGN", "CHECK"]

/-- Words a definition of anything but a column begins with. -/
def definitionWords : List Text :=
  "CONSTRAINT" :: keyWords

/-- A definition that has no meaning and is not refused either. -/
inductive Meaningless (types : Fields Text) : List Token → Prop where
  | semicolon {t : Token} : t.isPunct ";" = true → Meaningless types [t]
  | bits {tokens : List Token} :
      (∀ t ∈ (Cursor.withoutSemicolon tokens).head?, t.isWord definitionWords = false) →
      ColumnStops types (Cursor.withoutSemicolon tokens) → Meaningless types tokens

namespace Reading

variable {α : Type} {c : Cursor} {t : Token} {types : Fields Text} {sql table : Text}
  {tokens : List Token}

theorem columnDefinition_refusing {rest : List Token} (hahead : c.ahead = t :: rest)
    (h : t.isWord ["FULLTEXT", "SPATIAL", "FOREIGN", "CHECK"] = true ∨
      Refusing (Reading.column types sql c).1) :
    Refusing (columnDefinition types sql c).1 := by
  refine refusing_bind (refuses_here c) fun d c' hd => ?_
  obtain ⟨rfl, rfl⟩ := here_ok hd
  have hnext : c.next? = some t := by rw [Cursor.next?, hahead, List.head?_cons]
  rw [hnext]
  dsimp only
  split
  · exact refuses_pure _ _
  · next hdropped =>
      split
      · exact refuses_fail _ _
      · next hforeign =>
          refine refusing_bind (h.resolve_left ?_) fun _ c' _ => refuses_pure _ c'
          have happend := Token.isWord_append t ["FULLTEXT", "SPATIAL"] ["FOREIGN", "CHECK"]
          rw [Bool.eq_false_iff.2 hdropped, Bool.eq_false_iff.2 hforeign] at happend
          exact ne_true_of_eq_false happend

theorem constraint_refusing {x : Reading α} {P : Cursor → Prop}
    (hx : ∀ c, P c → Refusing (x c).1)
    (hnamed : ∀ c : Cursor, c.ahead.head?.any (·.isWord constraintKinds) = true → P c)
    (hplain : (∀ t ∈ c.ahead.head?, t.isWord ["CONSTRAINT"] = false) → P c) :
    Refusing ((do
      if (← acceptWord ["CONSTRAINT"]).isSome then constraintName
      x) c).1 := by
  refine refusing_bind (refuses_acceptWord _ c) fun o c₁ ho => ?_
  rcases accept_reads ho with ⟨word, rfl, -⟩ | ⟨rfl, rfl, hother⟩
  · refine refusing_bind (refuses_constraintName c₁) fun _ c₂ hname => ?_
    exact hx c₂ (hnamed c₂ (constraintName_reads hname).2)
  · exact hx c₁ (hplain hother)

theorem definition_refusing (htokens : tokens ≠ [])
    (h : (∀ t ∈ tokens.head?, t.isWord definitionWords = false) → ¬ ColumnStops types tokens) :
    Refusing (Reading.definition types sql table ⟨[], tokens⟩).1 := by
  -- behind what names the definition a key begins, or a column that is refused if it is not read
  refine constraint_refusing (P := fun c => ∃ t rest, c.ahead = t :: rest ∧
    (t.isWord keyWords = true ∨ Refusing (Reading.column types sql c).1)) ?_ ?_ ?_
  · rintro c ⟨t, rest, hahead, hc⟩
    refine refusing_bind (refuses_acceptWord _ c) fun o c₁ ho => ?_
    rcases accept_reads ho with ⟨word, rfl, -⟩ | ⟨rfl, rfl, hprimary⟩
    · exact Refuses.bind (refuses_expectWord _) (fun _ => .bind refuses_skipIndexKind fun _ =>
        .bind refuses_keyList fun _ => .bind refuses_skipIndexOptions fun _ => refuses_pure _) c₁
    refine refusing_bind (refuses_acceptWord _ c₁) fun o c₂ ho => ?_
    rcases accept_reads ho with ⟨word, rfl, -⟩ | ⟨rfl, rfl, hunique⟩
    · exact Refuses.bind (refuses_acceptWord _) (fun _ => .bind (refuses_key _ _) fun _ =>
        refuses_pure _) c₂
    refine refusing_bind (refuses_acceptWord _ c₂) fun o c₃ ho => ?_
    rcases accept_reads ho with ⟨word, rfl, -⟩ | ⟨rfl, rfl, hkey⟩
    · exact Refuses.bind (refuses_key _ _) (fun _ => refuses_pure _) c₃
    refine columnDefinition_refusing hahead (hc.imp_left fun hword => ?_)
    have hnext : t ∈ c₃.ahead.head? := by simp [hahead]
    have happend : t.isWord keyWords = (t.isWord ["PRIMARY"] || (t.isWord ["UNIQUE"] ||
        (t.isWord ["KEY", "INDEX"] || t.isWord ["FULLTEXT", "SPATIAL", "FOREIGN", "CHECK"]))) := by
      rw [← Token.isWord_append, ← Token.isWord_append, ← Token.isWord_append]
      rfl
    rw [hword, hprimary t hnext, hunique t hnext, hkey t hnext] at happend
    exact happend.symm
  · intro c hkind
    cases hahead : c.ahead with
    | nil => simp [hahead] at hkind
    | cons t rest =>
        have hword : t.isWord constraintKinds = true := by simpa [hahead] using hkind
        exact ⟨t, rest, rfl, .inl (Token.isWord_of_subset hword (by decide))⟩
  · intro hplain
    obtain ⟨t, rest, rfl⟩ := List.exists_cons_of_ne_nil htokens
    refine ⟨t, rest, rfl, ?_⟩
    cases hword : t.isWord keyWords with
    | true => exact .inl rfl
    | false =>
        refine .inr (column_refusing sql (h ?_))
        intro u hu
        obtain rfl : t = u := by simpa using hu
        rw [definitionWords, ← List.singleton_append, Token.isWord_append, hplain t hu, hword]
        rfl

theorem definition_faults (sql table : Text)
    (hword : ∀ t ∈ tokens.head?, t.isWord definitionWords = false)
    (h : ColumnStops types tokens) :
    ∃ fault c', Reading.definition types sql table ⟨[], tokens⟩ =
      (.error (.numeral fault), c') := by
  obtain ⟨fault, c', hfault⟩ := column_faults sql h
  refine ⟨fault, c', ?_⟩
  have hother : ∀ words : List Text, words ⊆ definitionWords →
      ∀ t ∈ tokens.head?, t.isWord words = false := by
    intro words hwords t ht
    rw [← Bool.not_eq_true]
    intro hw
    simpa [hword t ht] using Token.isWord_of_subset hw hwords
  have hskip : ∀ {words : List Text}, words ⊆ definitionWords →
      acceptWord words ⟨[], tokens⟩ = (.ok none, ⟨[], tokens⟩) :=
    fun hwords => accept_of_other (hother _ hwords)
  obtain ⟨t, hnext⟩ : ∃ t, tokens.head? = some t := by
    obtain ⟨_, _, _, _, _, hname, -⟩ := h
    obtain ⟨t, hahead, -⟩ := identifier_reads hname
    exact ⟨t, by rw [show tokens = t :: _ from hahead]; rfl⟩
  have hdropped := hother ["FULLTEXT", "SPATIAL"] (by decide) t hnext
  have hforeign := hother ["FOREIGN", "CHECK"] (by decide) t hnext
  unfold Reading.definition
  rw [bind_of_ok (hskip (by decide))]
  change (acceptWord ["PRIMARY"] >>= _) _ = _
  rw [bind_of_ok (hskip (by decide))]
  change (acceptWord ["UNIQUE"] >>= _) _ = _
  rw [bind_of_ok (hskip (by decide))]
  change (acceptWord ["KEY", "INDEX"] >>= _) _ = _
  rw [bind_of_ok (hskip (by decide))]
  change columnDefinition types sql _ = _
  unfold columnDefinition
  rw [bind_of_ok (show here ⟨[], tokens⟩ = (.ok ⟨[], tokens⟩, ⟨[], tokens⟩) from rfl),
    show Cursor.next? ⟨[], tokens⟩ = some t from hnext]
  dsimp only
  rw [if_neg (ne_true_of_eq_false hdropped), if_neg (ne_true_of_eq_false hforeign)]
  simp only [bind, hfault]

theorem definition_nil :
    Reading.definition types sql table ⟨[], []⟩ = (.error .loneSemicolon, ⟨[], []⟩) :=
  rfl

end Reading

theorem Cursor.withoutSemicolon_eq_nil {tokens : List Token} (htokens : tokens ≠ [])
    (h : Cursor.withoutSemicolon tokens = []) : ∃ t, tokens = [t] ∧ t.isPunct ";" = true := by
  obtain ⟨init, last, rfl⟩ := (List.eq_nil_or_concat' tokens).resolve_left htokens
  unfold Cursor.withoutSemicolon at h
  rw [List.getLast?_concat, List.dropLast_concat] at h
  dsimp only at h
  split at h
  · next hsemicolon =>
      subst h
      exact ⟨last, rfl, hsemicolon⟩
  · simp at h

namespace Meaningless

variable {types : Fields Text} {part : List Token}

theorem ne_nil (h : Meaningless types part) : part ≠ [] := by
  cases h with
  | semicolon => simp
  | bits _ hstops =>
      rintro rfl
      obtain ⟨_, _, _, _, _, hname, -⟩ := hstops
      obtain ⟨t, hahead, -⟩ := Reading.identifier_reads hname
      cases hahead

/-- A definition without a meaning fails otherwise than by a refusal. -/
theorem faults (h : Meaningless types part) (sql table : Text) :
    ∃ e, (Reading.definition types sql table).run part = .error e ∧ e.isReported = false := by
  cases h with
  | @semicolon t ht =>
      have hnil : Cursor.withoutSemicolon [t] = [] := by
        unfold Cursor.withoutSemicolon
        rw [List.getLast?_singleton]
        dsimp only
        rw [if_pos ht, List.dropLast_singleton]
      refine ⟨.loneSemicolon, ?_, rfl⟩
      rw [Reading.run, Cursor.ofTokens, hnil, Reading.definition_nil]
  | bits hword hstops =>
      obtain ⟨fault, c', hfault⟩ := Reading.definition_faults sql table hword hstops
      refine ⟨.numeral fault, ?_, rfl⟩
      rw [Reading.run, Cursor.ofTokens, hfault]

end Meaningless

namespace Table

variable {types : Fields Text} {sql table : Text} {part : List Token} {parts : List (List Token)}

theorem definition_refusing (hpart : part ≠ []) (h : ¬ Meaningless types part) :
    Refusing ((Reading.definition types sql table).run part) := by
  apply Reading.definition_refusing
  · intro hnil
    obtain ⟨t, rfl, ht⟩ := Cursor.withoutSemicolon_eq_nil hpart hnil
    exact h (.semicolon ht)
  · exact fun hword hstops => h (.bits hword hstops)

/-- The definitions are read up to one that has no meaning. -/
def ComesToMeaningless (types : Fields Text) (sql table : Text) (parts : List (List Token)) :
    Prop :=
  ∃ before part after, parts = before ++ part :: after ∧
    (∀ b ∈ before, b ≠ [] ∧ ∃ d, (Reading.definition types sql table).run b = .ok d) ∧
    Meaningless types part

theorem comesToMeaningless_cons :
    ComesToMeaningless types sql table (part :: parts) ↔
      Meaningless types part ∨ part ≠ [] ∧
        (∃ d, (Reading.definition types sql table).run part = .ok d) ∧
        ComesToMeaningless types sql table parts := by
  constructor
  · rintro ⟨before, stuck, after, heq, hbefore, hstuck⟩
    cases before with
    | nil =>
        obtain ⟨rfl, -⟩ := List.cons.inj heq
        exact .inl hstuck
    | cons b before =>
        obtain ⟨rfl, rfl⟩ := List.cons.inj heq
        obtain ⟨hne, hread⟩ := hbefore part (by simp)
        exact .inr ⟨hne, hread, before, stuck, after, rfl,
          fun b hb => hbefore b (List.mem_cons_of_mem _ hb), hstuck⟩
  · rintro (hpart | ⟨hne, hread, before, stuck, after, rfl, hbefore, hstuck⟩)
    · exact ⟨[], part, parts, rfl, by simp, hpart⟩
    · exact ⟨part :: before, stuck, after, rfl, List.forall_mem_cons.2 ⟨⟨hne, hread⟩, hbefore⟩,
        hstuck⟩

theorem readDefinitions_error {e : Error} (hpart : part ≠ []) :
    (readDefinitions types sql table (part :: parts)).outcome = .error e ↔
      (Reading.definition types sql table).run part = .error e ∨
        (∃ d, (Reading.definition types sql table).run part = .ok d) ∧
          (readDefinitions types sql table parts).outcome = .error e := by
  rw [readDefinitions, if_neg (by simpa using hpart)]
  cases (Reading.definition types sql table).run part with
  | error e' => simp [Report.ofExcept, bind]
  | ok definition =>
      -- the notice about a definition that is left out changes no outcome
      cases definition with
      | dropped word => simp [Report.bind_error, Report.ofExcept, Report.notes]
      | column | primaryKey | key => simp [Report.bind_error, Report.ofExcept]

theorem readDefinitions_refusing (h : ¬ ComesToMeaningless types sql table parts) :
    Refusing (readDefinitions types sql table parts).outcome := by
  induction parts with
  | nil => exact .ok []
  | cons part parts ih =>
      rw [comesToMeaningless_cons, not_or] at h
      by_cases hpart : part = []
      · subst hpart
        exact .refuse _
      · intro e he
        rcases (readDefinitions_error hpart).1 he with he | ⟨hread, he⟩
        · exact definition_refusing hpart h.1 e he
        · exact ih (fun hparts => h.2 ⟨hpart, hread, hparts⟩) e he

theorem readDefinitions_faults (h : ComesToMeaningless types sql table parts) :
    ∃ e, (readDefinitions types sql table parts).outcome = .error e ∧ e.isReported = false := by
  induction parts with
  | nil =>
      obtain ⟨before, part, after, heq, -⟩ := h
      simp at heq
  | cons part parts ih =>
      rcases comesToMeaningless_cons.1 h with hpart | ⟨hpart, hread, hparts⟩
      · obtain ⟨e, he, hreported⟩ := hpart.faults sql table
        exact ⟨e, (readDefinitions_error hpart.ne_nil).2 (.inl he), hreported⟩
      · obtain ⟨e, he, hreported⟩ := ih hparts
        exact ⟨e, (readDefinitions_error hpart).2 (.inr ⟨hread, he⟩), hreported⟩

theorem ofDefinitions_refusing (head : TableHead) (definitions : List Definition) :
    Refusing (ofDefinitions head definitions) := by
  unfold ofDefinitions
  dsimp only
  split
  · exact .refuse _
  · refine Refusing.map ?_ _
    unfold primaryKeyOf
    refine .ite (.refuse _) ?_
    dsimp only
    split
    · exact .refuse _
    · exact .ok _

theorem restate_refusing {tokens : List Token}
    (h : ∀ head, Reading.tableHead.run tokens = .ok head →
      ¬ ComesToMeaningless types sql head.name (splitTopLevel "," head.body)) :
    Refusing (restate types sql tokens).outcome := by
  refine Refusing.report_bind (Reading.refuses_tableHead.run tokens) fun head hhead => ?_
  refine Refusing.report_bind (readDefinitions_refusing (h head hhead)) fun definitions _ => ?_
  refine Refusing.report_bind (ofDefinitions_refusing head definitions) fun table _ => ?_
  exact .ok _

theorem restate_faults {tokens : List Token} {head : TableHead}
    (hhead : Reading.tableHead.run tokens = .ok head)
    (h : ComesToMeaningless types sql head.name (splitTopLevel "," head.body)) :
    ∃ e, (restate types sql tokens).outcome = .error e ∧ e.isReported = false := by
  obtain ⟨e, he, hreported⟩ := readDefinitions_faults h
  exact ⟨e, Report.bind_error.2 (.inr ⟨head, hhead, Report.bind_error.2 (.inl he)⟩), hreported⟩

end Table

theorem restateAddColumn_refusing (types : Fields Text) (sql : Text) (tokens : List Token) :
    Refusing (restateAddColumn types sql tokens).outcome := by
  have hhead := Reading.refuses_addedHead types (Cursor.ofTokens tokens)
  unfold restateAddColumn
  split
  · next e c heq =>
      rw [heq] at hhead
      rintro _ ⟨⟩
      exact hhead e rfl
  · next head c heq =>
      have hparts := Reading.collect_refusing (c := c)
        fun last _ => Reading.refuses_addedPart last
      exact hparts.map _

/-- A schema statement that does not create a table is restated or refused. -/
theorem restateSchemaTokens_refusing {types : Fields Text} {kind : StatementKind} {sql : Text}
    {tokens : List Token}
    (h : kind = .createTable → Refusing (Table.restate types sql tokens).outcome) :
    Refusing (restateSchemaTokens types kind sql tokens).outcome := by
  unfold restateSchemaTokens
  split
  · exact h rfl
  · exact Refusing.report_bind (Reading.refuses_createdIndex.run tokens) fun _ _ => .ok _
  · exact (restateAddColumn_refusing types sql tokens).report_bind fun _ _ => .ok _
  · exact Refusing.report_bind (Reading.refuses_addedKey.run tokens) fun _ _ => .ok _
  · exact Refusing.report_bind (Reading.refuses_addedKey.run tokens) fun _ _ => .ok _
  · exact Refusing.report_bind (Reading.refuses_droppedIndex.run tokens) fun _ _ => .ok _
  · exact .refuse _

end Restate
