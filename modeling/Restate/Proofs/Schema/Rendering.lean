import Restate.Proofs.Restatement
import Restate.Proofs.Sqlite.Tokens

/-!
# Rendered tokens as SQLite reads them

The tokens of an expression are written one after another, with a blank for whatever stood between
two of them. Main statement: SQLite reads what is written as the tokens one by one just if no two
that touch meet in a hyphen or in a quote (`renderTokens_reads_iff`).
-/

namespace Restate

open Text Sqlite

/-- What SQLite is to read for several tokens, with a blank between two that do not touch. -/
def readings : List Token → List Sqlite.Lexeme
  | [] => []
  | [t] => t.reading
  | t :: u :: rest =>
    t.reading ++ (if t.touches u then [] else [⟨.code, [' ']⟩]) ++ readings (u :: rest)

/-- SQLite reads the text as the tokens, and nothing of it as a comment. -/
structure ReadsAs (text : Text) (ts : List Token) : Prop where
  lexemes : Sqlite.lexemes together text = readings ts
  code : ∀ l ∈ Sqlite.lexemes together text, l.shape.isComment = false

instance (text : Text) (ts : List Token) : Decidable (ReadsAs text ts) :=
  decidable_of_iff (Sqlite.lexemes together text = readings ts ∧
    ∀ l ∈ Sqlite.lexemes together text, l.shape.isComment = false)
    ⟨fun h => ⟨h.1, h.2⟩, fun h => ⟨h.lexemes, h.code⟩⟩

variable {t u : Token}

section Neighbours

/-- Of two tokens that are no trivia, only trivia stands between them. -/
def Follows (tokens : List Token) (t u : Token) : Prop :=
  t.isTrivia = false ∧ u.isTrivia = false ∧
    ∃ gap, (∀ g ∈ gap, g.isTrivia = true) ∧ t :: gap ++ [u] <:+: tokens

variable {sql : Text} {tokens front back gap : List Token}

theorem isChain_significant (tokens : List Token) :
    (significant tokens).IsChain (Follows tokens) := by
  induction tokens with
  | nil => exact .nil
  | cons t tokens ih =>
      have hlater : ∀ u v, Follows tokens u v → Follows (t :: tokens) u v := by
        rintro u v ⟨hu, hv, gap, hgap, hpart⟩
        exact ⟨hu, hv, gap, hgap, hpart.trans (List.suffix_cons t tokens).isInfix⟩
      cases ht : t.isTrivia with
      | true =>
          have hskip : significant (t :: tokens) = significant tokens := by simp [significant, ht]
          rw [hskip]
          exact ih.imp hlater
      | false =>
          have hkeep : significant (t :: tokens) = t :: significant tokens := by
            simp [significant, ht]
          rw [hkeep]
          refine List.isChain_cons.2 ⟨fun u hu => ?_, ih.imp hlater⟩
          obtain ⟨more, hmore⟩ := List.head?_eq_some_iff.1 hu
          obtain ⟨gap, rest, rfl, hgap, hu, -⟩ := List.filter_eq_cons_iff.1 hmore
          exact ⟨ht, by simpa using hu, gap, by simpa using hgap, [], rest, by simp⟩

/-- Each token but trivia stands before the tokens behind it. -/
theorem stands_of_tokenize (h : tokenize sql = .ok (front ++ t :: back)) (ht : t.isTrivia = false) :
    t.Stands (sourceText back) := by
  obtain ⟨left, -, hlexes⟩ := Lexes.append_iff.1 (lexes_of_tokenize h)
  cases hlexes with
  | token hlex hback =>
      have hsource := hback.source
      rw [List.append_nil] at hsource
      subst hsource
      refine stands_of_lexeme hlex ht fun hdollar => ?_
      obtain ⟨more, hmore⟩ := List.head?_eq_some_iff.1 hdollar
      rw [hmore] at hback
      cases hback with
      | token hfault _ =>
          rw [lexeme_dollar] at hfault
          cases hfault

/-- Between two tokens nothing stands just if they touch. -/
theorem touches_iff (h : tokenize sql = .ok tokens) (hpart : t :: gap ++ [u] <:+: tokens) :
    t.stop ≤ u.start ∧ (t.touches u = true ↔ gap = []) := by
  obtain ⟨front, back, rfl⟩ := hpart
  obtain ⟨-, htiles, -⟩ := tiles_of_tokenize h
  obtain ⟨_, htiles, -⟩ := Tiles.append_iff.1 htiles
  obtain ⟨_, -, htiles⟩ := Tiles.append_iff.1 htiles
  rw [List.cons_append] at htiles
  obtain ⟨-, -, -, htiles⟩ := htiles
  obtain ⟨middle, hgap, -, hstart, -⟩ := Tiles.append_iff.1 htiles
  have hmiddle := hgap.stop_eq
  rw [Token.touches, hstart, beq_iff_eq]
  refine ⟨by omega, ?_, ?_⟩
  · intro htouch
    cases gap with
    | nil => rfl
    | cons g gap =>
        have hpos := List.length_pos_iff.2 (hgap.nonempty g List.mem_cons_self)
        rw [sourceText_cons, List.length_append] at hmiddle
        omega
  · rintro rfl
    exact hgap

/-- What is written for two neighbours is kept apart, by a blank where they do not touch. -/
theorem seams_of_follows (h : tokenize sql = .ok tokens) (hfollows : Follows tokens t u) :
    (t.touches u = true →
      (runsInto together (sqliteText t) (sqliteText u) = false ↔ ¬ Merges t u)) ∧
    runsInto together (sqliteText t) [' '] = false ∧
    runsInto together [' '] (sqliteText u) = false := by
  obtain ⟨ht, hu, gap, hgap, hpart⟩ := hfollows
  obtain ⟨-, htouches⟩ := touches_iff h hpart
  obtain ⟨front, back, rfl⟩ := hpart
  have hmem : u ∈ front ++ (t :: gap ++ [u]) ++ back := by simp
  obtain ⟨-, -, hread⟩ := tiles_of_tokenize h
  obtain ⟨_, _, _, _, hlex⟩ := hread u hmem
  have hsplit : tokenize sql = .ok (front ++ t :: (gap ++ u :: back)) := by
    rw [h]
    simp
  have hstands := stands_of_tokenize hsplit ht
  refine ⟨fun htouch => ?_, runsInto_space hstands hlex hu⟩
  obtain rfl := htouches.1 htouch
  refine runsInto_sqliteText_iff hstands hlex hu ?_
  rw [List.nil_append, sourceText_cons, List.head?_append_of_ne_nil _ (takes_lexeme hlex).1]

end Neighbours

section Parts

/-- What is written for tokens, piece by piece, with a blank between two that do not touch. -/
def parts : List Token → List Text
  | [] => []
  | [t] => [sqliteText t]
  | t :: u :: rest =>
    sqliteText t :: ((if t.touches u then [] else [[' ']]) ++ parts (u :: rest))

variable {ts : List Token}

theorem head?_parts (u : Token) (rest : List Token) :
    (parts (u :: rest)).head? = some (sqliteText u) := by
  cases rest with
  | nil => rfl
  | cons v rest => rfl

theorem mem_parts {p : Text} (h : p ∈ parts ts) : p = [' '] ∨ ∃ t ∈ ts, p = sqliteText t := by
  fun_induction parts ts with
  | case1 => cases h
  | case2 t => exact .inr ⟨t, List.mem_cons_self, List.mem_singleton.1 h⟩
  | case3 t u rest ih =>
      rcases List.mem_cons.1 h with rfl | h
      · exact .inr ⟨t, List.mem_cons_self, rfl⟩
      · rcases List.mem_append.1 h with h | h
        · split at h
          · cases h
          · exact .inl (List.mem_singleton.1 h)
        · exact (ih h).imp_right fun ⟨v, hv, heq⟩ => ⟨v, List.mem_cons_of_mem _ hv, heq⟩

theorem renderTokens_eq (h : ts.IsChain fun t u => t.stop ≤ u.start) :
    renderTokens ts = (parts ts).flatten := by
  fun_induction parts ts with
  | case1 => rfl
  | case2 t => simp [renderTokens]
  | case3 t u rest ih =>
      obtain ⟨hle, h⟩ := List.isChain_cons_cons.1 h
      rw [renderTokens, ih h]
      have htouch : t.touches u = true ↔ ¬ t.stop < u.start := by
        rw [Token.touches, beq_iff_eq]
        omega
      by_cases hlt : t.stop < u.start
      · simp [htouch, hlt]
      · simp [htouch, hlt]

theorem flatMap_parts (h : ∀ t ∈ ts, ∃ next, t.Stands next) :
    (parts ts).flatMap (lexemes together) = readings ts := by
  replace h : ∀ t ∈ ts, lexemes together (sqliteText t) = t.reading := fun t ht => by
    obtain ⟨next, hstands⟩ := h t ht
    exact hstands.reading
  fun_induction parts ts with
  | case1 => rfl
  | case2 t => simp [readings, h]
  | case3 t u rest ih =>
      have ih := ih fun v hv => h v (List.mem_cons_of_mem _ hv)
      have hspace : lexemes together [' '] = [⟨.code, [' ']⟩] := by decide
      rw [List.flatMap_cons, List.flatMap_append, ih, h t List.mem_cons_self, readings,
        List.append_assoc]
      by_cases htouch : t.touches u
      · simp [htouch]
      · simp [htouch, hspace]

theorem ne_nil_of_mem_parts (h : ∀ t ∈ ts, ∃ next, t.Stands next) : ∀ p ∈ parts ts, p ≠ [] := by
  rintro p hp rfl
  rcases mem_parts hp with hspace | ⟨t, ht, hnil⟩
  · cases hspace
  · obtain ⟨next, hstands⟩ := h t ht
    obtain ⟨l, hlast, -⟩ := hstands.ends
    rw [← hstands.reading, ← hnil] at hlast
    cases hlast

theorem code_readings (h : ∀ t ∈ ts, ∃ next, t.Stands next) :
    ∀ l ∈ readings ts, l.shape.isComment = false := by
  intro l hl
  rw [← flatMap_parts h] at hl
  obtain ⟨p, hp, hl⟩ := List.mem_flatMap.1 hl
  rcases mem_parts hp with rfl | ⟨t, ht, rfl⟩
  · have hspace : ∀ l ∈ lexemes together [' '], l.shape.isComment = false := by decide
    exact hspace l hl
  · obtain ⟨next, hstands⟩ := h t ht
    exact hstands.code l (hstands.reading ▸ hl)

/-- The pieces stand apart just if no two touching tokens merge. -/
theorem isChain_parts_iff (h : ts.IsChain fun t u =>
      (t.touches u = true →
        (runsInto together (sqliteText t) (sqliteText u) = false ↔ ¬ Merges t u)) ∧
      runsInto together (sqliteText t) [' '] = false ∧
      runsInto together [' '] (sqliteText u) = false) :
    ((parts ts).IsChain fun p q => runsInto together p q = false) ↔
      ts.IsChain fun t u => t.touches u = true → ¬ Merges t u := by
  fun_induction parts ts with
  | case1 => simp
  | case2 t => simp
  | case3 t u rest ih =>
      obtain ⟨⟨htouching, hbefore, hbehind⟩, h⟩ := List.isChain_cons_cons.1 h
      rw [List.isChain_cons_cons, ← ih h]
      by_cases htouch : t.touches u
      · simp [htouch, List.isChain_cons, head?_parts, htouching]
      · simp [htouch, List.isChain_cons, head?_parts, hbefore, hbehind]

end Parts

/-- The tokens of an expression are written one by one, with a blank just where something stood
between two of them, and SQLite reads them so, unless two that touch meet in a hyphen or in a
quote. -/
theorem renderTokens_reads_iff {sql : Text} {tokens slice : List Token}
    (h : tokenize sql = .ok tokens) (hslice : slice <:+: significant tokens) :
    (slice.IsChain fun t u => t.touches u = false ↔
      ∃ gap, gap ≠ [] ∧ (∀ g ∈ gap, g.isTrivia = true) ∧ t :: gap ++ [u] <:+: tokens) ∧
    renderTokens slice = (parts slice).flatten ∧
    (ReadsAs (renderTokens slice) slice ↔
      slice.IsChain fun t u => t.touches u = true → ¬ Merges t u) := by
  have hfollows : slice.IsChain (Follows tokens) :=
    List.IsChain.infix (isChain_significant tokens) hslice
  have hstands : ∀ t ∈ slice, ∃ next, t.Stands next := by
    intro t ht
    obtain ⟨hmem, htrivia⟩ := List.mem_filter.1 (hslice.subset ht)
    obtain ⟨front, back, rfl⟩ := List.append_of_mem hmem
    exact ⟨_, stands_of_tokenize h (by simpa using htrivia)⟩
  have hordered : slice.IsChain fun t u => t.stop ≤ u.start := by
    refine hfollows.imp fun t u hfollows => ?_
    obtain ⟨-, -, gap, -, hpart⟩ := hfollows
    exact (touches_iff h hpart).1
  refine ⟨hfollows.imp fun t u hfollows => ?_, renderTokens_eq hordered, ?_⟩
  · obtain ⟨-, -, gap, hgap, hpart⟩ := hfollows
    constructor
    · intro htouch
      refine ⟨gap, ?_, hgap, hpart⟩
      rintro rfl
      rw [(touches_iff h hpart).2.2 rfl] at htouch
      cases htouch
    · rintro ⟨gap, hne, -, hpart⟩
      rw [← Bool.not_eq_true, (touches_iff h hpart).2]
      exact hne
  · rw [← isChain_parts_iff (hfollows.imp fun t u hfollows => seams_of_follows h hfollows),
      ← lexemes_flatten_iff (ne_nil_of_mem_parts hstands), flatMap_parts hstands,
      ← renderTokens_eq hordered]
    constructor
    · exact ReadsAs.lexemes
    · intro hread
      exact ⟨hread, hread ▸ code_readings hstands⟩

/-- A name and a literal that touch keep apart, and the blank that stood in the source is kept. -/
theorem renderTokens_reads_concatenation :
    ∃ tokens, tokenize "(`a`'x' || b)" = .ok tokens ∧
      renderTokens (significant tokens) = "(\"a\"'x' || b)" ∧
      ReadsAs (renderTokens (significant tokens)) (significant tokens) := by
  obtain ⟨tokens, htokens, htest⟩ := exists_of_passes (show passes (fun tokens =>
    decide (renderTokens (significant tokens) = "(\"a\"'x' || b)") &&
      decide ((significant tokens).IsChain fun t u => t.touches u = true → ¬ Merges t u))
    (tokenize "(`a`'x' || b)") = true by decide +kernel)
  obtain ⟨hwritten, hapart⟩ := Bool.and_eq_true_iff.1 htest
  have hreads := (renderTokens_reads_iff htokens List.infix_rfl).2.2.2 (of_decide_eq_true hapart)
  exact ⟨tokens, htokens, of_decide_eq_true hwritten, hreads⟩

/-- Two literals with different quotes that touch are written as one. -/
theorem renderTokens_merges :
    ∃ tokens, tokenize "('a'\"b\")" = .ok tokens ∧
      renderTokens (significant tokens) = "('a''b')" ∧
      ¬ ReadsAs (renderTokens (significant tokens)) (significant tokens) := by
  obtain ⟨tokens, htokens, htest⟩ := exists_of_passes (show passes (fun tokens =>
    decide (renderTokens (significant tokens) = "('a''b')") &&
      decide (¬ ReadsAs (renderTokens (significant tokens)) (significant tokens)))
    (tokenize "('a'\"b\")") = true by decide +kernel)
  obtain ⟨hwritten, hmerged⟩ := Bool.and_eq_true_iff.1 htest
  exact ⟨tokens, htokens, of_decide_eq_true hwritten, of_decide_eq_true hmerged⟩

end Restate
