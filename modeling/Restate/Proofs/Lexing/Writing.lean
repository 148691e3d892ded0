import Restate.Proofs.Lexing.Digits
import Restate.Proofs.Text.Numbered

/-!
# Writing tokens

A text is written token by token, with a blank behind each. Words of capital letters, numerals,
marks, and whatever name stands in backticks are read back before a blank
(`Token.Spelled.isWritten`). Main statement: they are the tokens of the text they are written as
(`tokenize_written`).
-/

namespace Restate

open Text

namespace Token

/-- The lexer reads the token back before a blank, wherever it stands. -/
structure IsWritten (t : Token) : Prop where
  meaningful : t.isTrivia = false
  reads : ∀ a rest, Lexes a (t.text ++ ' ' :: rest) [t] (' ' :: rest)

def ofWord (word : Text) : Token :=
  ⟨if keywords.contains (Text.upper word) then .keyword else .identifier, word, 0, 0⟩

def ofMark (mark : Char) : Token :=
  ⟨.punctuation, [mark], 0, 0⟩

def ofNumeral (n : Nat) : Token :=
  ⟨.number, numeral n, 0, 0⟩

/-- A name in backticks. -/
def ofName (name : Text) : Token :=
  ⟨.quotedIdentifier, backtick :: (doubled backtick name ++ [backtick]), 0, 0⟩

def capitals : List Char :=
  "ABCDEFGHIJKLMNOPQRSTUVWXYZ".toList

/-- A word of capital letters. -/
def isCapitalized (word : Text) : Bool :=
  !word.isEmpty && word.all (capitals.contains ·)

/-- Words of capital letters, numerals, parentheses, commas and names in backticks. -/
inductive Spelled : Token → Prop where
  | word {word : Text} : isCapitalized word = true → Spelled (ofWord word)
  | mark {c : Char} : c ∈ ['(', ')', ','] → Spelled (ofMark c)
  | numeral (n : Nat) : Spelled (ofNumeral n)
  | name (name : Text) : Spelled (ofName name)

end Token

section Readers

variable {a : Bool} {c : Char} {s rest : Text}

theorem isBreak_space : isBreak ' ' = true := by
  decide

theorem Cut.leading_of_forall {p : Char → Bool} (h : ∀ d ∈ s, p d = true)
    (hrest : ∀ d ∈ rest.head?, p d = false) : Cut.leading p (s ++ rest) = (s, rest) := by
  rw [Cut.leading, List.takeWhile_append_of_pos h, List.dropWhile_append_of_pos h]
  cases rest with
  | nil => simp
  | cons d rest => simp [hrest d rfl]

theorem Cut.leading_self {p : Char → Bool} (h : ∀ d ∈ s, p d = true) :
    Cut.leading p s = (s, []) := by
  rw [Cut.leading, List.takeWhile_eq_self_iff.2 h, List.dropWhile_eq_nil_iff.2 h]

theorem Cut.leading_space {p : Char → Bool} (hspace : p ' ' = false) (h : ∀ d ∈ s, p d = true) :
    Cut.leading p (s ++ ' ' :: rest) = (s, ' ' :: rest) :=
  Cut.leading_of_forall h (by simpa using hspace)

/-- A word is read to where no character of a word follows, if it begins like nothing else. -/
theorem lexeme_bare (hblank : isBlank c = false) (hdigit : isDigitSign c = false)
    (hstart : isWordStart c = true) (hsign : c ∉ ['#', '-', '/', backtick, '\x27', '"', '.'])
    (hs : ∀ d ∈ s, isNameChar d = true) (hrest : ∀ d ∈ rest.head?, isNameChar d = false) :
    lexeme a c (s ++ rest) = .ok ((Token.ofWord (c :: s)).kind, c :: s, rest) := by
  simp only [List.mem_cons, List.not_mem_nil, or_false, not_or] at hsign
  obtain ⟨hhash, hhyphen, hslash, htick, hquote, hdouble, hpoint⟩ := hsign
  have hpointDigit : Lexeme.pointDigit (c :: (s ++ rest)) = false := by
    simp [Lexeme.pointDigit, hpoint]
  have hword : Lexeme.word? (c :: (s ++ rest)) = some (c :: s, rest) := by
    rw [Lexeme.word?, if_pos hstart, Cut.leading_of_forall hs hrest]
    rfl
  rw [lexeme_code hblank (Lexeme.lineComment_none hhash fun h => (hhyphen h).elim)
    fun h => (hslash h).elim, if_neg htick, if_neg (by simp [hquote, hdouble]), hdigit, hpointDigit,
    if_neg (by decide), Lexeme.symbol, hword]
  rfl

theorem lexeme_word (h : Token.isCapitalized (c :: s) = true) :
    lexeme a c (s ++ ' ' :: rest) =
      .ok ((Token.ofWord (c :: s)).kind, c :: s, ' ' :: rest) := by
  have hall : ∀ d ∈ c :: s, d ∈ Token.capitals := by
    simpa [Token.isCapitalized] using h
  obtain ⟨hc, hs⟩ := List.forall_mem_cons.1 hall
  have hclasses : Token.capitals.all (fun d => !isBlank d && !isDigitSign d && isWordStart d &&
      isNameChar d && !(['#', '-', '/', backtick, '\x27', '"', '.'].contains d)) = true := by
    decide +kernel
  have hclass : ∀ {d : Char}, d ∈ Token.capitals → isBlank d = false ∧ isDigitSign d = false ∧
      isWordStart d = true ∧ isNameChar d = true ∧
      d ∉ ['#', '-', '/', backtick, '\x27', '"', '.'] := by
    intro d hd
    simpa [and_assoc] using List.all_eq_true.1 hclasses d hd
  obtain ⟨hblank, hdigit, hstart, -, hsign⟩ := hclass hc
  exact lexeme_bare hblank hdigit hstart hsign (fun d hd => (hclass (hs d hd)).2.2.2.1)
    (by simpa using (by decide : isNameChar ' ' = false))

theorem lexeme_mark (h : c ∈ ['(', ')', ',']) :
    lexeme a c (' ' :: rest) = .ok (.punctuation, [c], ' ' :: rest) := by
  simp only [List.mem_cons, List.not_mem_nil, or_false] at h
  rcases h with rfl | rfl | rfl
  · rfl
  · rfl
  · rfl

/-- What is doubled and closed by its delimiter is read through to there. -/
theorem throughQuote_doubled (quote : Char) (name : Text) :
    Lexeme.throughQuote quote false (doubled quote name ++ [quote]) =
      some (doubled quote name ++ [quote], []) := by
  induction name with
  | nil => simp [doubled, Lexeme.throughQuote]
  | cons d name ih =>
      by_cases hd : d = quote
      · have hdoubled : doubled quote (d :: name) = quote :: quote :: doubled quote name := by
          simp [doubled, hd]
        rw [hdoubled, List.cons_append, List.cons_append, Lexeme.throughQuote]
        simp [ih, Cut.after]
      · have hdoubled : doubled quote (d :: name) = d :: doubled quote name := by
          simp [doubled, hd]
        -- the reader looks at two characters, and one more always follows
        obtain ⟨e, more, hmore⟩ : ∃ e more, doubled quote name ++ [quote] = e :: more :=
          List.exists_cons_of_ne_nil (by simp)
        rw [hdoubled, List.cons_append, hmore, Lexeme.throughQuote]
        rw [hmore] at ih
        simp [ih, hd, Cut.after]

theorem lexeme_name (name : Text) :
    lexeme a backtick (doubled backtick name ++ [backtick] ++ ' ' :: rest) =
      .ok (.quotedIdentifier, backtick :: (doubled backtick name ++ [backtick]), ' ' :: rest) := by
  have hquoted : Lexeme.quoted? backtick (doubled backtick name ++ [backtick] ++ ' ' :: rest) =
      some (backtick :: (doubled backtick name ++ [backtick]), ' ' :: rest) := by
    have hrest : (' ' :: rest).head? ≠ some backtick := by
      simp [backtick]
    have hthrough :=
      Lexeme.throughQuote_append (throughQuote_doubled backtick name) rfl hrest
    rw [Lexeme.quoted?, show (backtick != backtick) = false by decide, hthrough]
    rfl
  rw [lexeme_code (by decide) (Lexeme.lineComment_none (by decide) fun h => absurd h (by decide))
    fun h => absurd h (by decide), if_pos rfl, hquoted]

theorem number_digits (h : ∀ d ∈ c :: s, d.isDigit = true) :
    Lexeme.number (c :: s ++ ' ' :: rest) = .ok (some (c :: s, ' ' :: rest)) := by
  have hopens : Lexeme.opensHexadecimal (c :: s ++ ' ' :: rest) = false := by
    rw [Lexeme.opensHexadecimal_append isBreak_space, ← Bool.not_eq_true,
      Lexeme.opensHexadecimal_iff]
    rintro ⟨x, t, hs, hx⟩
    have hdigit := h x (by simp [hs])
    rcases hx with rfl | rfl
    · simp at hdigit
    · simp at hdigit
  have hdecimal : Lexeme.decimal? (c :: s ++ ' ' :: rest) = some (c :: s, ' ' :: rest) := by
    have hleading : Cut.leading isDecimal (c :: s ++ ' ' :: rest) = (c :: s, ' ' :: rest) :=
      Cut.leading_space (by decide) fun d hd => by
        rw [isDecimal, if_pos (toNat_lt_of_isDigit (h d hd))]
        exact h d hd
    rw [Lexeme.decimal?, Lexeme.mantissa?, hleading]
    cases rest with
    | nil => simp [Lexeme.exponent, Cut.after]
    | cons d rest => simp [Lexeme.exponent, Cut.after]
  rw [Lexeme.number, Lexeme.hexadecimal_none hopens, hdecimal]
  dsimp only
  rw [hopens]
  rfl

theorem lexeme_numeral (n : Nat) (h : numeral n = c :: s) :
    lexeme a c (s ++ ' ' :: rest) = .ok (.number, c :: s, ' ' :: rest) := by
  have hdigits : ∀ d ∈ c :: s, d.isDigit = true := by
    intro d hd
    rw [← h] at hd
    exact isDigit_of_mem_numeral hd
  have hc := hdigits c (by simp)
  have hpoint : c ≠ '.' := by
    rintro rfl
    simp at hc
  have hsign : isDigitSign c = true := by
    simp [isDigitSign, isDecimal, toNat_lt_of_isDigit hc, hc]
  have hnumber : Lexeme.number (c :: (s ++ ' ' :: rest)) = .ok (some (c :: s, ' ' :: rest)) :=
    number_digits hdigits
  rw [lexeme_numeric (.inl hsign), Lexeme.numeric, if_neg fun h => hpoint h.1, hnumber]

end Readers

namespace Token

variable {t : Token} {tokens : List Token}

theorem IsWritten.of_lexeme {kind : TokenKind} {c : Char} {s : Text}
    (hkind : kind.isTrivia = false)
    (h : ∀ a rest, lexeme a c (s ++ ' ' :: rest) = .ok (kind, c :: s, ' ' :: rest)) :
    IsWritten ⟨kind, c :: s, 0, 0⟩ :=
  ⟨hkind, fun a rest => .token (h a rest) .done⟩

theorem Spelled.isWritten (h : t.Spelled) : t.IsWritten := by
  cases h with
  | @word word hword =>
      cases word with
      | nil => simp [isCapitalized] at hword
      | cons c s =>
          refine .of_lexeme ?_ fun _ _ => lexeme_word hword
          split
          · rfl
          · rfl
  | mark hmark => exact .of_lexeme rfl fun _ _ => lexeme_mark hmark
  | numeral n =>
      obtain ⟨c, s, hcons⟩ : ∃ c s, Text.numeral n = c :: s :=
        List.exists_cons_of_ne_nil Nat.toDigits_ne_nil
      rw [ofNumeral, hcons]
      exact .of_lexeme rfl fun _ _ => lexeme_numeral n hcons
  | name name => exact .of_lexeme rfl fun _ _ => lexeme_name name

end Token

/-- A spelled token stands at no place. -/
theorem Token.Spelled.unplaced {t : Token} (h : t.Spelled) : t.unplaced = t := by
  cases h with
  | _ => rfl

/-- The tokens one behind the other, with a blank behind each. -/
def written (tokens : List Token) : Text :=
  tokens.flatMap fun t => t.text ++ [' ']

theorem written_cons (t : Token) (tokens : List Token) :
    written (t :: tokens) = t.text ++ ' ' :: written tokens := by
  simp [written]

/-- What is written begins with no blank. -/
theorem not_isBlank_written {tokens : List Token} (h : ∀ t ∈ tokens, t.IsWritten) :
    ∀ c ∈ (written tokens).head?, isBlank c = false := by
  cases tokens with
  | nil => simp [written]
  | cons t tokens =>
      obtain ⟨ht, -⟩ := List.forall_mem_cons.1 h
      rw [written_cons]
      have hread := ht.reads false (written tokens)
      generalize t.text ++ ' ' :: written tokens = s at hread
      cases hread with
      | @token _ c more left rest _ _ hlex _ =>
          rintro d hd
          obtain rfl := Option.some.inj hd
          cases hblank : isBlank c with
          | false => rfl
          | true =>
              rw [lexeme_blank hblank] at hlex
              have hkind : TokenKind.whitespace = t.kind := (Prod.mk.inj (Except.ok.inj hlex)).1
              have hmeaningful := ht.meaningful
              rw [Token.isTrivia, ← hkind] at hmeaningful
              cases hmeaningful

theorem Lexes.written {tokens : List Token} (h : ∀ t ∈ tokens, t.IsWritten) (a : Bool) :
    ∃ ts, Lexes a (Restate.written tokens) ts [] ∧ significant ts = tokens := by
  induction tokens generalizing a with
  | nil => exact ⟨[], .done, rfl⟩
  | cons t tokens ih =>
      obtain ⟨ht, htokens⟩ := List.forall_mem_cons.1 h
      obtain ⟨ts, hts, hsignificant⟩ := ih htokens (t.nameAfter a)
      -- no blank follows the one behind the token, so that one is a token by itself
      have hleading : Cut.leading isBlank (' ' :: Restate.written tokens) =
          ([' '], Restate.written tokens) := by
        have hnone := not_isBlank_written htokens
        cases hwritten : Restate.written tokens with
        | nil => rfl
        | cons c s =>
            rw [hwritten] at hnone
            simp [Cut.leading, hnone c rfl, show isBlank ' ' = true by decide]
      have hblank : Lexes (t.nameAfter a) (' ' :: Restate.written tokens)
          (⟨.whitespace, [' '], 0, 0⟩ :: ts) [] :=
        .token ((lexeme_blank (by decide)).trans (by rw [hleading])) hts
      refine ⟨t :: ⟨.whitespace, [' '], 0, 0⟩ :: ts, ?_, ?_⟩
      · rw [written_cons]
        exact Lexes.append_iff.2 ⟨_, ht.reads a _, hblank⟩
      · have hfilter : significant (t :: ⟨.whitespace, [' '], 0, 0⟩ :: ts) =
            t :: significant ts :=
          List.filter_cons_of_pos (by rw [ht.meaningful]; rfl)
        rw [hfilter, hsignificant]

/-- Spelled tokens are the tokens of the text they are written as. -/
theorem tokenize_written {tokens : List Token} (h : ∀ t ∈ tokens, t.Spelled) :
    ∃ ts, tokenize (written tokens) = .ok ts ∧
      (significant ts).map Token.unplaced = tokens := by
  obtain ⟨ts, hts, hsignificant⟩ := Lexes.written (fun t ht => (h t ht).isWritten) false
  obtain ⟨placed, hplaced, hunplaced⟩ := hts.tokenize
  refine ⟨placed, hplaced, ?_⟩
  rw [← significant_unplaced, hunplaced, significant_unplaced, hsignificant]
  exact (List.map_congr_left fun t ht => (h t ht).unplaced).trans (List.map_id' tokens)

end Restate
