import Restate.Proofs.Lexing.Locality
import Restate.Proofs.Token

/-!
# Reading a stretch of tokens

The lexer reads a stretch of tokens from a text and leaves the rest. Reading may stop and go on
between any two tokens, and what is read depends on what is left only where two hyphens stand before
the rest. Main statements: reading to the end of a text is tokenizing it (`lexes_of_tokenize`,
`Lexes.tokenize`), and a text may be cut at a break (`Lexes.cut`).
-/

namespace Restate

open Text

/-- Whether a name ends where the token does, if `afterName` tells it of the place before. -/
def Token.nameAfter (afterName : Bool) (t : Token) : Bool :=
  if t.isTrivia then afterName else t.endsName

/-- The tokens are read one after another from the head of a text, and `rest` is left. Their
offsets do not count. -/
inductive Lexes : Bool → Text → List Token → Text → Prop where
  | done {afterName : Bool} {rest : Text} : Lexes afterName rest [] rest
  | token {afterName : Bool} {c : Char} {more left rest : Text} {t : Token} {ts : List Token} :
      lexeme afterName c more = .ok (t.kind, t.text, left) →
      Lexes (t.nameAfter afterName) left ts rest → Lexes afterName (c :: more) (t :: ts) rest

namespace Lexes

variable {a : Bool} {s rest : Text} {ts us : List Token}

theorem source (h : Lexes a s ts rest) : s = sourceText ts ++ rest := by
  induction h with
  | done => rfl
  | token hlex _ ih => rw [sourceText_cons, List.append_assoc, ← ih, append_eq_of_lexeme hlex]

theorem isRead (h : Lexes a s ts rest) : ∀ t ∈ ts, t.IsRead := by
  induction h with
  | done => simp
  | token hlex _ ih => exact List.forall_mem_cons.2 ⟨⟨_, _, _, _, hlex⟩, ih⟩

/-- No token is empty, so what leaves the whole text reads nothing. -/
theorem eq_nil (h : Lexes a s ts s) : ts = [] := by
  have hsource := h.source
  cases ts with
  | nil => rfl
  | cons t ts =>
      obtain ⟨_, _, _, _, hlex⟩ := h.isRead t (by simp)
      have hpos : 0 < t.text.length := List.length_pos_iff.2 (takes_lexeme hlex).1
      have hlength := congrArg List.length hsource
      rw [sourceText_cons, List.length_append, List.length_append] at hlength
      omega

theorem append_iff :
    Lexes a s (ts ++ us) rest ↔
      ∃ left, Lexes a s ts left ∧ Lexes (ts.foldl Token.nameAfter a) left us rest := by
  induction ts generalizing a s with
  | nil =>
      constructor
      · exact fun h => ⟨s, .done, h⟩
      · rintro ⟨left, hdone, h⟩
        cases hdone
        exact h
  | cons t ts ih =>
      constructor
      · rintro (_ | ⟨hlex, h⟩)
        obtain ⟨left, hts, hus⟩ := ih.1 h
        exact ⟨left, .token hlex hts, hus⟩
      · rintro ⟨left, _ | ⟨hlex, hts⟩, hus⟩
        exact .token hlex (ih.2 ⟨left, hts, hus⟩)

/-- What the lexer reads is decided by the text. -/
theorem lexFrom (h : Lexes a s ts []) (offset : Nat) :
    (lexFrom offset a s).fault = none ∧
      (lexFrom offset a s).tokens.map Token.unplaced = ts.map Token.unplaced := by
  generalize hnil : ([] : Text) = rest at h
  induction h generalizing offset with
  | done =>
      subst hnil
      simp [Restate.lexFrom]
  | @token a c more left rest t ts hlex _ ih =>
      unfold Restate.lexFrom
      dsimp only
      split
      · next hfault => simp [hlex] at hfault
      · next hok =>
          obtain ⟨hkind, hcut⟩ := Prod.mk.inj (Except.ok.inj (hlex.symm.trans hok))
          obtain ⟨htext, rfl⟩ := Prod.mk.inj hcut
          subst hkind htext
          obtain ⟨hfault, htokens⟩ := ih (offset + t.text.length) hnil
          exact ⟨hfault, congrArg (List.cons t.unplaced) htokens⟩

theorem tokenize (h : Lexes false s ts []) :
    ∃ tokens, tokenize s = .ok tokens ∧
      tokens.map Token.unplaced = ts.map Token.unplaced := by
  obtain ⟨hfault, htokens⟩ := h.lexFrom 0
  exact ⟨_, by rw [Restate.tokenize, hfault], htokens⟩

end Lexes

theorem lexes_of_lexFrom {offset : Nat} {a : Bool} {s : Text}
    (h : (lexFrom offset a s).fault = none) : Lexes a s (lexFrom offset a s).tokens [] := by
  fun_induction lexFrom offset a s with
  | case1 => exact .done
  | case2 => simp at h
  | case3 offset a c more kind text rest hlex token lexed ih => exact .token hlex (ih h)

theorem lexes_of_tokenize {s : Text} {tokens : List Token} (h : tokenize s = .ok tokens) :
    Lexes false s tokens [] := by
  unfold tokenize at h
  dsimp only at h
  split at h
  · next hfault =>
      cases h
      exact lexes_of_lexFrom hfault
  · simp at h

/-- A text is one token just if it is read as one lexeme. -/
theorem tokenize_eq_singleton_iff {s : Text} {kind : TokenKind} :
    tokenize s = .ok [⟨kind, s, 0, s.length⟩] ↔
      ∃ c more, s = c :: more ∧ lexeme false c more = .ok (kind, s, []) := by
  constructor
  · intro h
    cases lexes_of_tokenize h with
    | token hlex hdone =>
        cases hdone
        exact ⟨_, _, rfl, hlex⟩
  · rintro ⟨c, more, rfl, hlex⟩
    have hlexes : Lexes false (c :: more) [⟨kind, c :: more, 0, 0⟩] [] := .token hlex .done
    obtain ⟨tokens, htokens, hunplaced⟩ := hlexes.tokenize
    obtain ⟨t, rfl, ht⟩ := List.map_eq_singleton_iff.1 hunplaced
    -- a token that covers the text stands where the text does
    obtain ⟨-, hstart, hstop, -⟩ := (tiles_of_tokenize htokens).2.1
    obtain ⟨kind', text, start, stop⟩ := t
    obtain rfl : kind' = kind := Token.kind_of_unplaced ht
    obtain rfl : text = c :: more := Token.text_of_unplaced ht
    obtain rfl : start = 0 := hstart
    obtain rfl : stop = (c :: more).length := by simpa using hstop
    exact htokens

section Cut

variable {a : Bool} {d : Char} {s z left : Text} {ts : List Token}

/-- A text may be cut at a break, whatever is left behind it. Of two hyphens right before the break
it must be known that it is a blank. -/
theorem Lexes.cut (hd : isBreak d = true)
    (hhyphens : ∀ b vs, vs <:+ ts → vs ≠ [] →
      Lexes b ('-' :: '-' :: d :: z) vs (left ++ d :: z) → isBlank d = true)
    (h : Lexes a (s ++ d :: z) ts (left ++ d :: z)) : Lexes a s ts left := by
  generalize hlong : s ++ d :: z = long at h
  generalize hrest : left ++ d :: z = rest at h
  induction h generalizing s with
  | done =>
      subst hrest
      rw [List.append_cancel_right hlong]
      exact .done
  | @token a c more after rest t ts hlex h ih =>
      subst hrest
      have hsource : after = sourceText ts ++ left ++ d :: z := by
        rw [h.source, List.append_assoc]
      have hs : s = t.text ++ (sourceText ts ++ left) := by
        have htext := append_eq_of_lexeme hlex
        rw [← hlong, hsource, ← List.append_assoc] at htext
        exact (List.append_cancel_right htext).symm
      obtain ⟨e, text, he⟩ : ∃ e text, t.text = e :: text :=
        List.exists_cons_of_ne_nil (takes_lexeme hlex).1
      rw [he, List.cons_append] at hs
      subst hs
      obtain ⟨rfl, rfl⟩ := List.cons.inj hlong
      have hread : Lexes a (e :: (text ++ (sourceText ts ++ left) ++ d :: z)) (t :: ts)
          (left ++ d :: z) := .token hlex h
      rw [hsource] at hlex
      refine .token (lexeme_of_append hd ?_ hlex) (ih ?_ hsource.symm rfl)
      · intro hc htail
        rw [hc, htail] at hread
        exact hhyphens a (t :: ts) (List.suffix_refl _) (by simp) hread
      · intro b vs hvs hne
        exact hhyphens b vs (hvs.trans (List.suffix_cons t ts)) hne

end Cut

end Restate
