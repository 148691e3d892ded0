import Restate.Proofs.Lexing.Spelling
import Restate.Proofs.Sqlite.Placeholders
import Restate.RowStatement

/-!
# Tokens that hold no placeholder

As SQLite reads it, what stands for a token holds no placeholder unless the token is one, or is a
comment that begins with a hash (`Token.IsRead.silent`): most tokens have no colon, and quoted spans
and comments hide theirs.
-/

namespace Restate

open Text Sqlite

theorem Text.doubled_of_not_mem {c : Char} {s : Text} (h : ∀ d ∈ s, d ≠ c) : doubled c s = s := by
  induction s with
  | nil => rfl
  | cons d s ih =>
      have hd : d ≠ c := h d (by simp)
      have hs : doubled c s = s := ih fun e he => h e (by simp [he])
      have hcons : doubled c (d :: s) = (if d = c then [c, c] else [d]) ++ doubled c s := rfl
      rw [hcons, if_neg hd, hs, List.singleton_append]

namespace Lexeme

/-- A variable's name has no colon, or stands between quotes. -/
theorem silent_variableName {s : Text} {cut : Cut} (h : variableName? s = some cut) :
    Silent cut.1 := by
  rcases variableName_cases h with hbare | ⟨quote, name, hquote, hname, htext⟩
  · apply silent_of_no_colon
    intro hmem
    simpa using (hbare ':' hmem).symm.trans (show isVariableChar ':' = false by decide)
  · have hfirst : Shape.ofFirst quote = .quoted quote := by
      unfold Shape.ofFirst
      rw [if_pos]
      rcases hquote with h | h | h
      · exact .inr (.inr h)
      · exact .inl h
      · exact .inr (.inl h)
    have := silent_quoted hfirst name
    rwa [doubled_of_not_mem hname, ← htext] at this

theorem silent_atName {s : Text} {cut : Cut} (h : atName? s = some cut) : Silent cut.1 := by
  have hat : isLone '@' = true := by decide
  unfold atName? at h
  split at h
  · obtain ⟨rest, hrest, rfl⟩ := Option.map_eq_some_iff.1 h
    unfold Silent Cut.after
    rw [List.cons_append, List.singleton_append, placeholders_lone hat, placeholders_lone hat]
    exact silent_variableName hrest
  · obtain ⟨rest, hrest, rfl⟩ := Option.map_eq_some_iff.1 h
    unfold Silent Cut.after
    rw [List.singleton_append, placeholders_lone hat]
    exact silent_variableName hrest
  · simp at h

/-- Every operator is silent; only `:=` has a colon. -/
theorem silent_operator {s : Text} {cut : Cut} (h : operator? s = some cut) : Silent cut.1 := by
  obtain ⟨sign, hfind, rfl⟩ := Option.map_eq_some_iff.1 h
  have : ∀ sign ∈ operators, Silent sign := by decide
  exact this sign (List.mem_of_find?_eq_some hfind)

end Lexeme

theorem silent_quoteIdentifier (name : Text) : Silent (quoteIdentifier name) :=
  silent_quoted rfl name

theorem silent_quoteString (value : Text) : Silent (quoteString value) :=
  silent_quoted rfl value

/-- A placeholder has no name, or a name of word characters. -/
theorem Token.IsRead.placeholder {t : Token} (h : t.IsRead) (hkind : t.kind = .placeholder) :
    t.text = ['?'] ∨
      ∃ name, t.text = ':' :: name ∧ name ≠ [] ∧ ∀ c ∈ name, isWordChar c = true := by
  obtain ⟨_, c, s, rest, hlex⟩ := h
  have hreads := reads_of_lexeme hlex
  rw [hkind] at hreads
  generalize hcut : (t.text, rest) = cut at hreads
  have htext : t.text = cut.1 := congrArg Prod.fst hcut
  cases hreads with
  | position hc => exact .inl (by rw [htext, hc])
  | named hname => exact .inr (htext ▸ Lexeme.placeholder_name hname)

/-- What stands for any other token but a literal or a comment that begins with a hash is silent. -/
theorem Token.IsRead.silent {t : Token} (h : t.IsRead) (hplaceholder : t.kind ≠ .placeholder)
    (hstring : t.kind ≠ .string) (hhash : t.kind = .comment → t.text.head? ≠ some '#') :
    Silent (plainPiece t) := by
  by_cases hcomment : t.kind = .comment
  · have hplain : plainPiece t = t.text := by
      rw [plainPiece, if_neg]
      simp [hcomment]
    rw [hplain]
    rcases h.comment hcomment with hhead | ⟨s, hs, hline⟩ | ⟨body, cut, hclose, hs⟩
    · exact (hhash hcomment hhead).elim
    · rw [hs]
      exact silent_line hline
    · rw [hs]
      exact silent_block hclose
  · -- a name is quoted anew; any other token stands as it was read
    obtain ⟨_, c, s, rest, hlex⟩ := h
    have hreads := reads_of_lexeme hlex
    generalize hcut : (t.text, rest) = cut at hreads
    have htext : t.text = cut.1 := congrArg Prod.fst hcut
    unfold plainPiece
    split
    · exact silent_quoteIdentifier t.value
    · next hname =>
        rw [htext]
        generalize t.kind = kind at hreads hplaceholder hstring hcomment hname
        cases hreads with
        | blanks _ => exact silent_of_no_colon (Lexeme.not_mem_leading (by decide) (c :: s))
        | line _ => exact (hcomment rfl).elim
        | block _ _ _ => exact (hcomment rfl).elim
        | name _ _ => exact (hname rfl).elim
        | literal _ _ => exact (hstring rfl).elim
        | number hn => exact silent_of_no_colon (Lexeme.foreign_colon.not_mem_number hn)
        | digits hd => exact silent_of_no_colon (Lexeme.foreign_colon.not_mem_digitName hd)
        | keyword hw => exact silent_of_no_colon (Lexeme.foreign_colon.not_mem_word hw)
        | word hw => exact silent_of_no_colon (Lexeme.foreign_colon.not_mem_word hw)
        | atName hv => exact Lexeme.silent_atName hv
        | position _ => exact (hplaceholder rfl).elim
        | named _ => exact (hplaceholder rfl).elim
        | sign ho => exact Lexeme.silent_operator ho
        | mark hm =>
            apply silent_of_no_colon
            intro hmem
            rw [← List.mem_singleton.1 hmem] at hm
            revert hm
            decide

end Restate
