import Restate.Proofs.Batch

/-!
# Semicolons that separate

A semicolon of a batch separates where as many parentheses are closed as opened before it. Main
statement: each semicolon that is left inside a statement stands in a parenthesis of that statement,
unless more parentheses were closed than opened before it (`splitStatements_enclosed_iff`). A
parenthesis too many takes the statements behind it along (`splitStatements_not_enclosed`).
-/

namespace Restate

open Text

/-- Each semicolon of a statement stands in a parenthesis that the statement opened before it. -/
def SemicolonsEnclosed (statement : List Token) : Prop :=
  ∀ before mark after, statement = before ++ mark :: after → mark.isPunct ";" = true →
    HasOpen before

/-- What of the last statement stands behind the last separator of the tokens. -/
def lastStatement (tokens : List Token) : List Token :=
  (splitTopLevel ";" tokens).getLast?.getD []

section Enclosed

/-- Each semicolon stands in a parenthesis, where `n` are open before the tokens. -/
def enclosedFrom (n : Nat) : List Token → Bool
  | [] => true
  | t :: ts => (!t.isPunct ";" || decide (0 < n)) && enclosedFrom (openAfter n t) ts

variable {tokens : List Token} {n : Nat}

theorem enclosedFrom_iff : enclosedFrom n tokens = true ↔
    ∀ before mark after, tokens = before ++ mark :: after → mark.isPunct ";" = true →
      0 < before.foldl openAfter n := by
  induction tokens generalizing n with
  | nil => simp [enclosedFrom]
  | cons t tokens ih =>
      rw [enclosedFrom, Bool.and_eq_true, ih, Bool.or_eq_true, decide_eq_true_iff,
        Bool.not_eq_true', ← Bool.not_eq_true, ← imp_iff_not_or]
      constructor
      · rintro ⟨hhead, htail⟩ before mark after heq hmark
        cases before with
        | nil =>
            obtain ⟨rfl, rfl⟩ := List.cons.inj heq
            exact hhead hmark
        | cons u before =>
            obtain ⟨rfl, rfl⟩ := List.cons.inj heq
            exact htail before mark after rfl hmark
      · intro h
        refine ⟨h [] t tokens rfl, ?_⟩
        rintro before mark after rfl hmark
        exact h (t :: before) mark after rfl hmark

theorem semicolonsEnclosed_iff : SemicolonsEnclosed tokens ↔ enclosedFrom 0 tokens = true := by
  rw [enclosedFrom_iff]
  simp only [SemicolonsEnclosed, hasOpen_iff]
  rfl

instance : Decidable (SemicolonsEnclosed tokens) :=
  decidable_of_iff _ semicolonsEnclosed_iff.symm

theorem semicolonsEnclosed_nil : SemicolonsEnclosed [] :=
  forall_split_nil

theorem semicolonsEnclosed_concat {t : Token} :
    SemicolonsEnclosed (tokens ++ [t]) ↔
      SemicolonsEnclosed tokens ∧ (t.isPunct ";" = true → HasOpen tokens) :=
  forall_split_concat (P := fun before (mark : Token) => mark.isPunct ";" = true → HasOpen before)

/-- A token that is neither a parenthesis nor a semicolon does not count. -/
theorem enclosedFrom_of_not_punct {t : Token} (h : t.kind ≠ .punctuation) :
    enclosedFrom n (t :: tokens) = enclosedFrom n tokens := by
  simp [enclosedFrom, openAfter, Token.isPunct, h]

theorem enclosedFrom_significant : enclosedFrom n (significant tokens) = enclosedFrom n tokens := by
  induction tokens generalizing n with
  | nil => rfl
  | cons t tokens ih =>
      cases ht : t.isTrivia with
      | true =>
          have hkind : t.kind ≠ .punctuation := by
            intro hkind
            simp [Token.isTrivia, hkind, TokenKind.isTrivia] at ht
          rw [enclosedFrom_of_not_punct hkind, ← ih]
          simp [significant, ht]
      | false =>
          have hcons : significant (t :: tokens) = t :: significant tokens := by
            simp [significant, ht]
          rw [hcons, enclosedFrom, enclosedFrom, ih]

theorem enclosedFrom_unplaced :
    enclosedFrom n (tokens.map Token.unplaced) = enclosedFrom n tokens := by
  induction tokens generalizing n with
  | nil => rfl
  | cons t tokens ih =>
      rw [List.map_cons, enclosedFrom, enclosedFrom, ih]
      rfl

theorem enclosedFrom_append {more : List Token} :
    enclosedFrom n (tokens ++ more) =
      (enclosedFrom n tokens && enclosedFrom (tokens.foldl openAfter n) more) := by
  induction tokens generalizing n with
  | nil => rfl
  | cons t tokens ih => simp [enclosedFrom, ih, Bool.and_assoc]

theorem enclosedFrom_codeAlone : enclosedFrom n (codeAlone tokens) = enclosedFrom n tokens := by
  unfold codeAlone
  split
  · next hends =>
      obtain ⟨front, t, u, rfl, ht, hu⟩ := exists_of_endsInHyphens hends
      have hfront : (front ++ [t, u]).dropLast.dropLast = front := by simp
      rw [hfront, enclosedFrom_append]
      simp [enclosedFrom, Token.isPunct, ht, hu]
  · rfl

theorem semicolonsEnclosed_of_trivia (h : tokens.all Token.isTrivia = true) :
    SemicolonsEnclosed tokens := by
  have hnone : significant tokens = [] := by simpa [significant] using h
  rw [semicolonsEnclosed_iff, ← enclosedFrom_significant, hnone]
  rfl

/-- Tokens that differ in places, in trivia, and in two hyphens at the end. -/
theorem semicolonsEnclosed_of_read {chunk own : List Token}
    (h : (significant own).map Token.unplaced =
      (significant (codeAlone chunk)).map Token.unplaced) :
    SemicolonsEnclosed own ↔ SemicolonsEnclosed chunk := by
  rw [semicolonsEnclosed_iff, semicolonsEnclosed_iff, ← enclosedFrom_significant,
    ← enclosedFrom_unplaced, h, enclosedFrom_unplaced, enclosedFrom_significant,
    enclosedFrom_codeAlone]

end Enclosed

section Separators

variable {tokens : List Token} {t : Token}

/-- The parentheses of the statements that are complete are even. -/
theorem openParens_lastStatement (tokens : List Token) :
    openParens (lastStatement tokens) = openParens tokens :=
  openParens_lastPart (by decide) (by decide) tokens

/-- The depth is less than the number of open parentheses where one too many was closed. -/
theorem openParens_le_unclosed (tokens : List Token) : openParens tokens ≤ unclosed tokens := by
  induction tokens using List.reverseRecOn with
  | nil => exact Int.le_refl 0
  | append_singleton tokens t ih =>
      have hunclosed : unclosed (tokens ++ [t]) = openAfter (unclosed tokens) t := by
        simp [unclosed]
      rw [openParens_concat, hunclosed, depthAfter, openAfter]
      split
      · omega
      · split
        · omega
        · exact ih

/-- The semicolons in the parts of the tokens are those that do not separate. -/
theorem semicolonsEnclosed_splitTopLevel_iff :
    (∀ chunk ∈ splitTopLevel ";" tokens, SemicolonsEnclosed chunk) ↔
      ∀ before mark after, tokens = before ++ mark :: after → mark.isPunct ";" = true →
        openParens before ≠ 0 → HasOpen (lastStatement before) := by
  induction tokens using List.reverseRecOn with
  | nil => simp [splitTopLevel, splitAtDepth, semicolonsEnclosed_nil]
  | append_singleton tokens t ih =>
      rw [forall_split_concat (P := fun before mark => mark.isPunct ";" = true →
        openParens before ≠ 0 → HasOpen (lastStatement before)), ← ih]
      obtain ⟨front, hfront, hnext⟩ :=
        exists_splitTopLevel_concat (show ";".toList ≠ "(".toList by decide) (by decide) tokens
      rw [hnext, hfront]
      by_cases hseparator : t.isPunct ";" = true ∧ openParens tokens = 0
      · rw [if_pos hseparator, List.forall_mem_append]
        simp [semicolonsEnclosed_nil, hseparator.2]
      · rw [if_neg hseparator]
        have hdepth : t.isPunct ";" = true → openParens tokens ≠ 0 :=
          fun hmark hzero => hseparator ⟨hmark, hzero⟩
        simp only [List.forall_mem_append, List.forall_mem_singleton, semicolonsEnclosed_concat,
          and_assoc]
        constructor
        · rintro ⟨hchunks, hlast, ht⟩
          exact ⟨hchunks, hlast, fun hmark _ => ht hmark⟩
        · rintro ⟨hchunks, hlast, ht⟩
          exact ⟨hchunks, hlast, fun hmark => ht hmark (hdepth hmark)⟩

end Separators

/-- The semicolons in a statement are enclosed, but for those before which more parentheses were
closed than opened. -/
theorem splitStatements_enclosed_iff {batch : Text} {tokens : List Token}
    (h : tokenize batch = .ok tokens) :
    ∃ statements read, splitStatements batch = .ok statements ∧
      List.Forall₂ (fun statement own => tokenize statement = .ok own) statements read ∧
      ((∀ own ∈ read, SemicolonsEnclosed own) ↔
        ∀ before mark after, tokens = before ++ mark :: after → mark.isPunct ";" = true →
          openParens before < 0 → HasOpen (lastStatement before)) := by
  obtain ⟨own, hsplit, hown, hsame⟩ := splitStatements_read h
  refine ⟨_, (statementChunks tokens).map own, hsplit, hown, ?_⟩
  -- what is said of the statements as they are read holds of all parts of the batch
  have hread : (∀ statement ∈ (statementChunks tokens).map own, SemicolonsEnclosed statement) ↔
      ∀ chunk ∈ splitTopLevel ";" tokens, SemicolonsEnclosed chunk := by
    rw [List.forall_mem_map]
    constructor
    · intro hchunks chunk hchunk
      cases htrivia : chunk.all Token.isTrivia with
      | true => exact semicolonsEnclosed_of_trivia htrivia
      | false =>
          have hstatement : chunk ∈ statementChunks tokens :=
            List.mem_filter.2 ⟨hchunk, by simp [htrivia]⟩
          exact (semicolonsEnclosed_of_read (hsame chunk hchunk)).1 (hchunks chunk hstatement)
    · intro hchunks chunk hchunk
      have hmem := List.mem_of_mem_filter hchunk
      exact (semicolonsEnclosed_of_read (hsame chunk hmem)).2 (hchunks chunk hmem)
  rw [hread, semicolonsEnclosed_splitTopLevel_iff]
  constructor
  · intro hopen before mark after heq hmark hneg
    exact hopen before mark after heq hmark (by omega)
  · intro hopen before mark after heq hmark hne
    rcases Int.lt_or_gt_of_ne hne with hneg | hpos
    · exact hopen before mark after heq hmark hneg
    · -- more are opened than closed, so one of them is open
      have hle := openParens_le_unclosed (lastStatement before)
      rw [openParens_lastStatement] at hle
      exact hasOpen_iff.2 (by omega)

/-- A parenthesis too many is closed, and one is opened around the semicolon. -/
theorem splitStatements_enclosed_of_opening :
    ∃ tokens statements read, tokenize "a (;b); c)) (;d" = .ok tokens ∧
      splitStatements "a (;b); c)) (;d" = .ok statements ∧
      statements = ["a (;b)".toList, "c)) (;d".toList] ∧
      List.Forall₂ (fun statement own => tokenize statement = .ok own) statements read ∧
      ∀ own ∈ read, SemicolonsEnclosed own := by
  obtain ⟨tokens, htokens, hmarks⟩ := exists_of_passes (show passes (fun tokens : List Token =>
      decide (∀ i : Fin tokens.length, tokens[i].isPunct ";" = true →
        openParens (tokens.take i) < 0 → HasOpen (lastStatement (tokens.take i))))
      (tokenize "a (;b); c)) (;d") = true by decide +kernel)
  obtain ⟨statements, read, hstatements, hread, hiff⟩ := splitStatements_enclosed_iff htokens
  obtain ⟨_, hsplit, htexts⟩ := exists_of_passes (show passes (fun statements => decide
      (statements = ["a (;b)".toList, "c)) (;d".toList])) (splitStatements "a (;b); c)) (;d")
      = true by decide +kernel)
  obtain rfl := Except.ok.inj (hstatements.symm.trans hsplit)
  refine ⟨tokens, statements, read, htokens, hstatements, of_decide_eq_true htexts, hread, ?_⟩
  apply hiff.2
  exact forall_split_iff.2 (of_decide_eq_true hmarks)

/-- One parenthesis too many keeps the statements behind it from being separated. -/
theorem splitStatements_not_enclosed :
    ∃ statements statement own,
      splitStatements "SELECT 1); DROP TABLE t; SELECT 2" = .ok statements ∧
      statement ∈ statements ∧ tokenize statement = .ok own ∧ ¬ SemicolonsEnclosed own := by
  obtain ⟨statements, hsplit, htexts⟩ := exists_of_passes (show passes (fun statements => decide
      (statements = ["SELECT 1); DROP TABLE t; SELECT 2".toList]))
      (splitStatements "SELECT 1); DROP TABLE t; SELECT 2") = true by decide +kernel)
  obtain rfl := of_decide_eq_true htexts
  obtain ⟨own, hown, hopen⟩ := exists_of_passes (show passes (fun own =>
      decide (¬ SemicolonsEnclosed own)) (tokenize "SELECT 1); DROP TABLE t; SELECT 2") = true by
      decide +kernel)
  exact ⟨_, _, own, hsplit, List.mem_singleton_self _, hown, of_decide_eq_true hopen⟩

end Restate
