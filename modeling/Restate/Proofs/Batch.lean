import Mathlib.Data.List.Forall2
import Restate.Batch
import Restate.Proofs.Lexing.Trimming
import Restate.Proofs.Restatement
import Restate.Proofs.TopLevel

/-!
# The statements of a batch keep their tokens

A batch is read as a whole, and each of its statements is read again by itself. Main statement: both
readings give the same significant tokens (`splitStatements_significant`), but for two hyphens right
before a semicolon, which begin a comment where the statement ends.
-/

namespace Restate

open Text

/-- The tokens without the semicolons that stand outside all parentheses, where `before` stands in
front of them. -/
def withoutSeparators (before : List Token) : List Token → List Token
  | [] => []
  | t :: ts =>
    if t.isPunct ";" ∧ openParens before = 0 then withoutSeparators (before ++ [t]) ts
    else t :: withoutSeparators (before ++ [t]) ts

/-- The stretches of a batch that hold a statement. -/
def statementChunks (tokens : List Token) : List (List Token) :=
  (splitTopLevel ";" tokens).filter fun chunk => !chunk.all Token.isTrivia

/-- The last two tokens are hyphens. -/
def endsInHyphens (chunk : List Token) : Bool :=
  match chunk.reverse with
  | u :: t :: _ => t.isOperator "-" && u.isOperator "-"
  | _ => false

/-- The tokens of a stretch that are code by themselves: all of them, but for two hyphens at the
end, which are a comment if nothing follows. -/
def codeAlone (chunk : List Token) : List Token :=
  if endsInHyphens chunk then chunk.dropLast.dropLast else chunk

section Separators

theorem splitAtDepth_semicolon (depth : Int) (t : Token) (ts : List Token) :
    splitAtDepth ";" depth (t :: ts) =
      if t.isPunct ";" ∧ depth = 0 then [] :: splitAtDepth ";" (depthAfter depth t) ts
      else consFirst t (splitAtDepth ";" (depthAfter depth t) ts) :=
  splitAtDepth_cons (by decide) (by decide) depth t ts

/-- The parts hold all tokens but the separators. -/
theorem flatten_splitAtDepth (before ts : List Token) :
    (splitAtDepth ";" (openParens before) ts).flatten = withoutSeparators before ts := by
  induction ts generalizing before with
  | nil => rfl
  | cons t ts ih =>
      have hnext := ih (before ++ [t])
      rw [openParens_concat] at hnext
      rw [splitAtDepth_semicolon, withoutSeparators, ← hnext]
      split
      · rfl
      · exact flatten_consFirst t _

end Separators

section Hyphens

theorem exists_of_endsInHyphens {chunk : List Token} (h : endsInHyphens chunk = true) :
    ∃ front t u, chunk = front ++ [t, u] ∧ t.text = ['-'] ∧ u.text = ['-'] := by
  unfold endsInHyphens at h
  split at h
  · next u t front hreverse =>
      refine ⟨front.reverse, t, u, ?_, ?_, ?_⟩
      · simpa using congrArg List.reverse hreverse
      · simp only [Token.isOperator, Bool.and_eq_true, beq_iff_eq] at h
        exact h.1.2
      · simp only [Token.isOperator, Bool.and_eq_true, beq_iff_eq] at h
        exact h.2.2
  · simp at h

variable {a : Bool} {s z rest : Text} {ts : List Token}

/-- Before a semicolon two hyphens are no comment. -/
theorem lexeme_hyphen_hyphen :
    lexeme a '-' ('-' :: ';' :: z) = .ok (.operator, ['-'], '-' :: ';' :: z) :=
  rfl

theorem lexeme_hyphen_semicolon : lexeme a '-' (';' :: z) = .ok (.operator, ['-'], ';' :: z) :=
  rfl

/-- At the end they are one. -/
theorem lexeme_hyphens_end : lexeme a '-' ['-'] = .ok (.comment, ['-', '-'], []) :=
  rfl

theorem endsInHyphens_of_suffix {vs : List Token} (h : endsInHyphens vs = true)
    (hvs : vs <:+ ts) : endsInHyphens ts = true := by
  obtain ⟨front, rfl⟩ := hvs
  unfold endsInHyphens at h ⊢
  rw [List.reverse_append]
  split at h
  · next hreverse => rwa [hreverse]
  · simp at h

/-- Two hyphens right before a semicolon are two tokens. -/
theorem Lexes.endsInHyphens (h : Lexes a ('-' :: '-' :: ';' :: z) ts (';' :: z)) :
    endsInHyphens ts = true := by
  cases h with
  | @token _ _ _ left _ t ts hlex h =>
      obtain ⟨hkind, hcut⟩ := Prod.mk.inj (Except.ok.inj (lexeme_hyphen_hyphen.symm.trans hlex))
      obtain ⟨htext, rfl⟩ := Prod.mk.inj hcut
      cases h with
      | @token _ _ _ left _ u ts hlex h =>
          obtain ⟨hkind', hcut'⟩ :=
            Prod.mk.inj (Except.ok.inj (lexeme_hyphen_semicolon.symm.trans hlex))
          obtain ⟨htext', rfl⟩ := Prod.mk.inj hcut'
          obtain rfl := h.eq_nil
          simp [Restate.endsInHyphens, Token.isOperator, ← hkind, ← htext, ← hkind', ← htext']

end Hyphens

section Chunks

variable {a : Bool} {s z rest : Text} {chunk ts : List Token}

/-- Where a stretch may end: at the end of the text, or right before a semicolon. -/
def IsEnd (rest : Text) : Prop :=
  rest = [] ∨ ∃ z, rest = ';' :: z

/-- A text may be cut before a semicolon if no two hyphens alone are left in front of it. -/
theorem Lexes.cut_end {left : Text} (hrest : IsEnd rest)
    (hhyphens : ∀ b z vs, vs <:+ ts → vs ≠ [] →
      ¬ Lexes b ('-' :: '-' :: ';' :: z) vs (left ++ ';' :: z))
    (h : Lexes a (s ++ rest) ts (left ++ rest)) : Lexes a s ts left := by
  rcases hrest with rfl | ⟨z, rfl⟩
  · rwa [List.append_nil, List.append_nil] at h
  · exact h.cut (by decide) fun b vs hvs hne hread => (hhyphens b z vs hvs hne hread).elim

/-- What is read up to an end is read in the same way by itself, but for two hyphens there. -/
theorem Lexes.alone (hrest : IsEnd rest) (h : Lexes a s chunk rest) :
    ∃ us, Lexes a (sourceText chunk) us [] ∧ significant us = significant (codeAlone chunk) := by
  obtain rfl := h.source
  unfold codeAlone
  split
  · next hends =>
      obtain ⟨front, t, u, rfl, ht, hu⟩ := exists_of_endsInHyphens hends
      obtain ⟨left, hfront, hlast⟩ := append_iff.1 h
      have hleft : left = ['-', '-'] ++ rest := by simpa [sourceText, ht, hu] using hlast.source
      have hsource : sourceText (front ++ [t, u]) = sourceText front ++ ['-', '-'] := by
        simp [sourceText, ht, hu]
      rw [hsource, hleft] at hfront
      have hcut : Lexes a (sourceText front ++ ['-', '-']) front ['-', '-'] := by
        refine hfront.cut_end hrest ?_
        intro b z vs _ hne hread
        exact hne hread.eq_nil
      let comment : Token := ⟨.comment, ['-', '-'], 0, 0⟩
      rw [hsource]
      refine ⟨front ++ [comment], append_iff.2 ⟨_, hcut, .token lexeme_hyphens_end .done⟩, ?_⟩
      simp [significant, comment, Token.isTrivia, TokenKind.isTrivia]
  · next hends =>
      have hcut : Lexes a (sourceText chunk) chunk [] := by
        refine Lexes.cut_end hrest ?_ h
        intro b z vs hvs _ hread
        exact hends (endsInHyphens_of_suffix hread.endsInHyphens hvs)
      exact ⟨chunk, hcut, rfl⟩

/-- The first part goes on from where the tokens begin, the others begin behind a separator. -/
theorem lexes_splitAtDepth (depth : Int) (h : Lexes a s ts []) :
    ∃ first others, splitAtDepth ";" depth ts = first :: others ∧
      (∃ rest, IsEnd rest ∧ Lexes a s first rest) ∧
      ∀ chunk ∈ others, ∃ s rest, IsEnd rest ∧ Lexes false s chunk rest := by
  induction ts generalizing a s depth with
  | nil => exact ⟨[], [], rfl, ⟨[], .inl rfl, h⟩, by simp⟩
  | cons t ts ih =>
      cases h with
      | @token _ c more left _ _ _ hlex h =>
          obtain ⟨first, others, hsplit, ⟨rest, hrest, hfirst⟩, hothers⟩ :=
            ih (depthAfter depth t) h
          rw [splitAtDepth_semicolon, hsplit]
          split
          · next hseparator =>
              obtain ⟨hmark, -⟩ := hseparator
              simp only [Token.isPunct, Bool.and_eq_true, beq_iff_eq] at hmark
              have hname : t.nameAfter a = false := by
                simp [Token.nameAfter, Token.isTrivia, Token.endsName, Token.isPunct, hmark,
                  TokenKind.isTrivia]
              refine ⟨[], first :: others, rfl, ⟨c :: more, .inr ⟨left, ?_⟩, .done⟩, ?_⟩
              · rw [← append_eq_of_lexeme hlex, hmark.2]
                rfl
              · refine List.forall_mem_cons.2 ⟨⟨left, rest, hrest, ?_⟩, hothers⟩
                rwa [hname] at hfirst
          · exact ⟨t :: first, others, rfl, ⟨rest, hrest, .token hlex hfirst⟩, hothers⟩

/-- Each stretch of a batch is read by itself as its statement. -/
theorem tokenize_statementText {batch : Text} {tokens : List Token}
    (h : tokenize batch = .ok tokens) (hchunk : chunk ∈ splitTopLevel ";" tokens) :
    ∃ own, tokenize (statementText chunk) = .ok own ∧
      (significant own).map Token.unplaced =
        (significant (codeAlone chunk)).map Token.unplaced := by
  obtain ⟨first, others, hsplit, ⟨rest, hrest, hfirst⟩, hothers⟩ :=
    lexes_splitAtDepth 0 (lexes_of_tokenize h)
  obtain ⟨s, rest, hrest, hread⟩ : ∃ s rest, IsEnd rest ∧ Lexes false s chunk rest := by
    rw [splitTopLevel, hsplit] at hchunk
    rcases List.mem_cons.1 hchunk with rfl | hchunk
    · exact ⟨batch, rest, hrest, hfirst⟩
    · exact hothers chunk hchunk
  obtain ⟨us, hus, halone⟩ := hread.alone hrest
  obtain ⟨vs, hvs, hstrip⟩ := hus.strip
  obtain ⟨own, hown, hunplaced⟩ := hvs.tokenize
  refine ⟨own, hown, ?_⟩
  rw [← significant_unplaced, hunplaced, significant_unplaced, hstrip, halone]

theorem significant_flatten (parts : List (List Token)) :
    significant parts.flatten =
      (parts.filter fun part => !part.all Token.isTrivia).flatMap significant := by
  induction parts with
  | nil => rfl
  | cons part parts ih =>
      have hcons : significant (part :: parts).flatten =
          significant part ++ significant parts.flatten := by
        simp [significant]
      rw [hcons, ih]
      cases htrivia : part.all Token.isTrivia with
      | true =>
          have hnone : significant part = [] := by simpa [significant] using htrivia
          rw [List.filter_cons_of_neg (by simp [htrivia]), hnone, List.nil_append]
      | false => rw [List.filter_cons_of_pos (by simp [htrivia]), List.flatMap_cons]

/-- What the statements hold together is the batch without its separators. -/
theorem significant_statementChunks (tokens : List Token) :
    (statementChunks tokens).flatMap significant = significant (withoutSeparators [] tokens) := by
  rw [← flatten_splitAtDepth, significant_flatten]
  rfl

end Chunks

/-- The statements of a batch are those of its stretches, and each stretch is read by itself. -/
theorem splitStatements_read {batch : Text} {tokens : List Token}
    (h : tokenize batch = .ok tokens) :
    ∃ own : List Token → List Token,
      splitStatements batch = .ok ((statementChunks tokens).map statementText) ∧
      List.Forall₂ (fun statement own => tokenize statement = .ok own)
        ((statementChunks tokens).map statementText) ((statementChunks tokens).map own) ∧
      ∀ chunk ∈ splitTopLevel ";" tokens, (significant (own chunk)).map Token.unplaced =
        (significant (codeAlone chunk)).map Token.unplaced := by
  choose! own hown hsame using
    fun chunk (hchunk : chunk ∈ splitTopLevel ";" tokens) => tokenize_statementText h hchunk
  refine ⟨own, ?_, ?_, hsame⟩
  · rw [splitStatements, h]
    rfl
  · rw [List.forall₂_map_left_iff, List.forall₂_map_right_iff, List.forall₂_same]
    exact fun chunk hchunk => hown chunk (List.mem_of_mem_filter hchunk)

/-- Each statement of a batch is read by itself as the significant tokens it has in the batch. -/
theorem splitStatements_significant {batch : Text} {tokens : List Token}
    (h : tokenize batch = .ok tokens) :
    ∃ statements read, splitStatements batch = .ok statements ∧
      List.Forall₂ (fun statement own => tokenize statement = .ok own) statements read ∧
      List.Forall₂ (fun chunk own =>
        (significant own).map Token.unplaced = (significant (codeAlone chunk)).map Token.unplaced)
        (statementChunks tokens) read ∧
      ((∀ chunk ∈ statementChunks tokens, endsInHyphens chunk = false) →
        (read.flatMap significant).map Token.unplaced =
          (significant (withoutSeparators [] tokens)).map Token.unplaced) := by
  obtain ⟨own, hsplit, hown, hsame⟩ := splitStatements_read h
  have hmem : ∀ chunk ∈ statementChunks tokens, chunk ∈ splitTopLevel ";" tokens :=
    fun chunk hchunk => List.mem_of_mem_filter hchunk
  refine ⟨_, (statementChunks tokens).map own, hsplit, hown, ?_, ?_⟩
  · rw [List.forall₂_map_right_iff, List.forall₂_same]
    exact fun chunk hchunk => hsame chunk (hmem chunk hchunk)
  · intro hhyphens
    rw [← significant_statementChunks, List.flatMap_map, List.map_flatMap, List.map_flatMap]
    apply List.flatMap_congr
    intro chunk hchunk
    rw [hsame chunk (hmem chunk hchunk), codeAlone, hhyphens chunk hchunk, if_neg (by simp)]

/-- A comment hides a semicolon and loses its blanks; two hyphens become one. -/
theorem splitStatements_significant_of_comment :
    ∃ tokens statements read, tokenize "a -- ; \n; (b;c)--;" = .ok tokens ∧
      (statementChunks tokens).map endsInHyphens = [false, true] ∧
      splitStatements "a -- ; \n; (b;c)--;" = .ok statements ∧
      statements = ["a -- ;".toList, "(b;c)--".toList] ∧
      List.Forall₂ (fun statement own => tokenize statement = .ok own) statements read ∧
      List.Forall₂ (fun chunk own =>
        (significant own).map Token.unplaced = (significant (codeAlone chunk)).map Token.unplaced)
        (statementChunks tokens) read := by
  obtain ⟨tokens, htokens, hends⟩ := exists_of_passes (show passes (fun tokens => decide
      ((statementChunks tokens).map endsInHyphens = [false, true])) (tokenize "a -- ; \n; (b;c)--;")
      = true by decide +kernel)
  obtain ⟨statements, read, hstatements, hread, hsame, -⟩ := splitStatements_significant htokens
  obtain ⟨_, hsplit, htexts⟩ := exists_of_passes (show passes (fun statements => decide
      (statements = ["a -- ;".toList, "(b;c)--".toList])) (splitStatements "a -- ; \n; (b;c)--;")
      = true by decide +kernel)
  obtain rfl := Except.ok.inj (hstatements.symm.trans hsplit)
  exact ⟨tokens, statements, read, htokens, of_decide_eq_true hends, hstatements,
    of_decide_eq_true htexts, hread, hsame⟩

end Restate
