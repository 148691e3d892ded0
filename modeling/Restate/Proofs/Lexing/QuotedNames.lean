import Restate.Proofs.Lexing.Tiling
import Restate.Proofs.Lexing.Writing
import Restate.Proofs.Restatement
import Restate.Proofs.Sqlite.Reading

/-!
# Names in backticks

The lexer reads a name in backticks up to a backtick that is not doubled, so in what it has read the
backticks come in pairs, and halving the pairs can be undone. Main statement: a name is what its
SQLite form is read back to, and two names in backticks with one SQLite form are written alike
(`quotedNames_apart`).
-/

namespace Restate

open Text

namespace Lexeme

/-- What is read through to the closing delimiter, where nothing escapes, is a name with each of its
delimiters twice. -/
theorem exists_doubled_of_throughQuote {quote : Char} {s : Text} {cut : Cut}
    (h : throughQuote quote false s = some cut) :
    ∃ name, cut.1 = doubled quote name ++ [quote] := by
  fun_induction throughQuote quote false s generalizing cut with
  | case1 => simp at h
  | case2 => simp at h
  | case3 =>
      cases h
      exact ⟨[], rfl⟩
  | case4 => simp at h
  | case5 c d s hescape ih => simp at hescape
  | case6 s hescape ih =>
      obtain ⟨cut, hcut, rfl⟩ := Option.map_eq_some_iff.1 h
      obtain ⟨name, hname⟩ := ih hcut
      exact ⟨quote :: name, by simp [Cut.after, doubled, hname]⟩
  | case7 =>
      cases h
      exact ⟨[], rfl⟩
  | case8 c d s hescape hc ih =>
      obtain ⟨cut, hcut, rfl⟩ := Option.map_eq_some_iff.1 h
      obtain ⟨name, hname⟩ := ih hcut
      exact ⟨c :: name, by simp [Cut.after, doubled, hname, hc]⟩

end Lexeme

variable {t u : Token}

/-- A name in backticks is the written form of the name it stands for. -/
theorem Token.IsRead.unplaced_eq_ofName (h : t.IsRead) (hkind : t.kind = .quotedIdentifier) :
    t.unplaced = Token.ofName (decodeIdentifier t.text) := by
  obtain ⟨_, c, s, rest, hlex⟩ := h
  have hreads := reads_of_lexeme hlex
  rw [hkind] at hreads
  generalize hcut : (t.text, rest) = cut at hreads
  cases hreads with
  | name hc hquoted =>
      obtain ⟨body, hbody, rfl⟩ := Option.map_eq_some_iff.1 hquoted
      rw [hc, show (backtick != backtick) = false by decide] at hbody
      obtain ⟨name, hname⟩ := Lexeme.exists_doubled_of_throughQuote hbody
      have htext : t.text = backtick :: (doubled backtick name ++ [backtick]) := by
        rw [(Prod.mk.inj hcut).1, hc, hname]
        rfl
      rw [htext, decodeIdentifier_delimited (.inl rfl)]
      exact Token.unplaced_eq (u := Token.ofName name) hkind htext

/-- Names in backticks with one SQLite form are written alike. -/
theorem Token.IsRead.quoteIdentifier_eq_iff (ht : t.IsRead) (hu : u.IsRead)
    (hkind : t.kind = .quotedIdentifier) (hother : u.kind = .quotedIdentifier) :
    quoteIdentifier (decodeIdentifier t.text) = quoteIdentifier (decodeIdentifier u.text) ↔
      t.text = u.text := by
  constructor
  · intro h
    have hname := quoteIdentifier_injective h
    apply Token.text_of_unplaced
    rw [ht.unplaced_eq_ofName hkind, hu.unplaced_eq_ofName hother, hname]
  · intro h
    rw [h]

/-- Requoting loses nothing. The SQLite form of a name is one quoted span and is read back to the
name, and two names in backticks that a statement holds, or two statements, have one SQLite form
only if they are written alike. -/
theorem quotedNames_apart :
    (∀ name, decodeIdentifier (quoteIdentifier name) = name ∧
      Sqlite.lexemes Sqlite.together (quoteIdentifier name) =
        [⟨.closed '"', quoteIdentifier name⟩]) ∧
    ∀ sql other tokens others, tokenize sql = .ok tokens → tokenize other = .ok others →
      ∀ t ∈ tokens, ∀ u ∈ others, t.kind = .quotedIdentifier → u.kind = .quotedIdentifier →
        (quoteIdentifier (decodeIdentifier t.text) = quoteIdentifier (decodeIdentifier u.text) ↔
          t.text = u.text) := by
  refine ⟨fun name => ⟨decodeIdentifier_quoteIdentifier name, Sqlite.lexemes_quoteIdentifier name⟩,
    ?_⟩
  intro sql other tokens others htokens hothers t ht u hu hkind hother
  obtain ⟨-, -, hread⟩ := tiles_of_tokenize htokens
  obtain ⟨-, -, hreadOther⟩ := tiles_of_tokenize hothers
  exact (hread t ht).quoteIdentifier_eq_iff (hreadOther u hu) hkind hother

/-- Runs of backticks at the edges of two names, and a double quote between them in one. -/
theorem quotedNames_apart_runs :
    ∃ tokens t u, tokenize "SELECT ```a``\"```, ````.`a`" = .ok tokens ∧ t ∈ tokens ∧ u ∈ tokens ∧
      t.kind = .quotedIdentifier ∧ u.kind = .quotedIdentifier ∧
      t.text = "```a``\"```".toList ∧ u.text = "````".toList ∧
      quoteIdentifier (decodeIdentifier t.text) ≠ quoteIdentifier (decodeIdentifier u.text) ∧
      decodeIdentifier (quoteIdentifier "`a`\"`") = "`a`\"`".toList := by
  obtain ⟨tokens, htokens, htest⟩ := exists_of_passes (show passes (fun tokens =>
      tokens.any (fun t => t.kind == .quotedIdentifier && t.text == "```a``\"```".toList) &&
        tokens.any (fun u => u.kind == .quotedIdentifier && u.text == "````".toList))
      (tokenize "SELECT ```a``\"```, ````.`a`") = true by decide +kernel)
  simp only [Bool.and_eq_true, List.any_eq_true, beq_iff_eq] at htest
  obtain ⟨⟨t, ht, hkind, htext⟩, u, hu, hother, htextOther⟩ := htest
  obtain ⟨hback, hiff⟩ := quotedNames_apart
  refine ⟨tokens, t, u, htokens, ht, hu, hkind, hother, htext, htextOther, ?_, (hback _).1⟩
  rw [Ne, hiff _ _ tokens tokens htokens htokens t ht u hu hkind hother, htext, htextOther]
  decide

end Restate
