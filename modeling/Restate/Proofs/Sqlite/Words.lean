import Restate.Proofs.Sqlite.Reading
import Restate.Proofs.Text.Blank

/-!
# Where words and parentheses stand apart

Of the lexemes that SQLite reads, words are what their neighbours may run into. A word goes on
behind a text just if the text ends in a character of a word, or inside a quoted span or a comment;
a character that stands alone, such as a parenthesis or a comma, is a lexeme of its own just if what
stands before it does not end inside one (`runsInto_word_iff`, `runsInto_alone_iff`).
-/

namespace Restate.Sqlite

open Text

/-- The lexeme is a quoted span or a comment whose end has not come. -/
def Shape.isOpen : Shape → Bool
  | .quoted _ | .lineComment | .blockComment | .blockStar => true
  | .code | .placeholder | .closed _ | .blockEnd => false

/-- The text ends inside a quoted span or a comment. -/
def endsInside (s : Text) : Bool :=
  (lexemes together s).getLast?.any fun l => l.shape.isOpen

/-- The text ends in a character of a word. -/
def endsInWord (s : Text) : Bool :=
  s.getLast?.any isNameChar

/-- The text begins with a character of a word. -/
def beginsWithWord (s : Text) : Bool :=
  s.head?.any isNameChar

/-- Parentheses and the comma, which belong to no operator. -/
def isMark (c : Char) : Bool :=
  c == '(' || c == ')' || c == ','

/-- The character belongs to no word and no operator, and it is neither blank nor a quote. -/
def standsAlone (c : Char) : Bool :=
  !isNameChar c && !isBlank c && Shape.ofFirst c == .code
    && Restate.Lexeme.operators.all fun sign => !sign.contains c

def Lexeme.ofMark (c : Char) : Lexeme :=
  ⟨.code, [c]⟩

def Lexeme.word (s : Text) : Lexeme :=
  ⟨.code, s⟩

variable {c d quote : Char} {s p q : Text} {l : Lexeme} {shape : Shape}

theorem not_isBlank_of_isNameChar (h : isNameChar c = true) : isBlank c = false := by
  have hblanks : blanks.all (!isNameChar ·) = true := by
    decide +kernel
  cases hc : isBlank c with
  | false => rfl
  | true => simp [not_of_isBlank hblanks hc] at h

theorem not_isNameChar_of_quoted (h : Shape.ofFirst quote = .quoted quote) :
    isNameChar quote = false ∧ standsAlone quote = false := by
  unfold Shape.ofFirst at h
  split at h
  · next hquote => rcases hquote with rfl | rfl | rfl <;> decide
  · simp at h

theorem standsAlone_of_isMark (h : isMark c = true) : standsAlone c = true := by
  have hmark : c = '(' ∨ c = ')' ∨ c = ',' := by simpa [isMark, or_assoc] using h
  rcases hmark with rfl | rfl | rfl <;> decide

theorem not_class_of_standsAlone (h : standsAlone c = true) :
    isNameChar c = false ∧ isBlank c = false := by
  simp only [standsAlone, Bool.and_eq_true, Bool.not_eq_true'] at h
  exact h.1.1

theorem ofFirst_of_standsAlone (h : standsAlone c = true) : Shape.ofFirst c = .code := by
  simp only [standsAlone, Bool.and_eq_true] at h
  exact eq_of_beq h.1.2

/-- Operators hold no characters of words. -/
theorem operators_all :
    Restate.Lexeme.operators.all (·.all fun c => !isNameChar c) = true := by
  decide +kernel

theorem not_operator_of_mem (hs : c ∈ s) (h : isNameChar c = true ∨ standsAlone c = true) :
    s ∉ Restate.Lexeme.operators := by
  intro hmem
  rcases h with h | h
  · have := List.all_eq_true.1 (List.all_eq_true.1 operators_all s hmem) c hs
    simp [h] at this
  · simp only [standsAlone, Bool.and_eq_true] at h
    have := List.all_eq_true.1 h.2 s hmem
    simp [hs] at this

/-- No character of a word, nor one that stands alone, begins a comment or goes on with one. -/
theorem ne_of_word_or_alone (h : isNameChar c = true ∨ standsAlone c = true) :
    c ≠ '-' ∧ c ≠ '/' ∧ c ≠ '*' ∧ c ≠ '\n' := by
  refine ⟨?_, ?_, ?_, ?_⟩ <;> rintro rfl <;> revert h <;> decide

namespace Lexeme

/-- What holds of every lexeme that is read with words together: a stretch of code is a word or has
no part of one, a span that is closed ends in its quote, and a block in a slash. -/
def Regular (l : Lexeme) : Prop :=
  l.text ≠ [] ∧
    match l.shape with
    | .code => ∀ c ∈ l.text, ∀ d ∈ l.text, isNameChar c = isNameChar d
    | .placeholder => False
    | .quoted quote => Shape.ofFirst quote = .quoted quote
    | .closed quote => Shape.ofFirst quote = .quoted quote ∧ l.text.getLast? = some quote
    | .blockEnd => l.text.getLast? = some '/'
    | .lineComment | .blockComment | .blockStar => True

theorem regular_ofChar (c : Char) : (ofChar c).Regular := by
  have hquoted : Shape.ofFirst c = .quoted c ∨ Shape.ofFirst c = .code := by
    unfold Shape.ofFirst
    split
    · exact .inl rfl
    · exact .inr rfl
  refine ⟨by simp [ofChar], ?_⟩
  rcases hquoted with h | h
  · simp only [ofChar, h]
  · simp [ofChar, h]

/-- Two characters of code that stand together are of one word, or of none. -/
theorem isNameChar_of_joins (h : together.joins s c = true) :
    ∀ d ∈ s.head?, isNameChar d = isNameChar c := by
  intro d hd
  obtain ⟨s, rfl⟩ := List.head?_eq_some_iff.1 hd
  simp only [together, Bool.or_eq_true, Bool.and_eq_true] at h
  rcases h with (⟨hd, hc⟩ | ⟨hd, hc⟩) | hop
  · rw [hd, hc]
  · cases hname : isNameChar d with
    | true => simp [not_isBlank_of_isNameChar hname] at hd
    | false =>
        cases hname : isNameChar c with
        | true => simp [not_isBlank_of_isNameChar hname] at hc
        | false => rfl
  · have hnone : ∀ e ∈ d :: s ++ [c], isNameChar e = false := by
      intro e he
      rw [← Bool.not_eq_true]
      exact fun hname => not_operator_of_mem he (.inl hname) (List.contains_iff_mem.1 hop)
    rw [hnone d (by simp), hnone c (by simp)]

theorem Regular.extend (h : l.Regular) (hext : l.extend? together c = some shape) :
    Regular ⟨shape, l.text ++ [c]⟩ := by
  obtain ⟨shape', text⟩ := l
  obtain ⟨hne, hregular⟩ := h
  refine ⟨by simp, ?_⟩
  cases shape' with
  | code =>
      have hcode : (∀ d ∈ text, ∀ e ∈ text, isNameChar d = isNameChar e) := hregular
      unfold extend? at hext
      dsimp only at hext
      split at hext
      · cases hext
        trivial
      · split at hext
        · cases hext
          trivial
        · rw [if_neg (by simp [together])] at hext
          split at hext
          · next hjoins =>
              cases hext
              obtain ⟨first, rest, rfl⟩ := List.exists_cons_of_ne_nil hne
              have hc := isNameChar_of_joins hjoins first rfl
              -- every character is like the first one
              have hall : ∀ d ∈ first :: rest ++ [c], isNameChar d = isNameChar first := by
                intro d hd
                rcases List.mem_append.1 hd with hd | hd
                · exact hcode d hd first (by simp)
                · rw [List.mem_singleton.1 hd, hc]
              exact fun d hd e he => (hall d hd).trans (hall e he).symm
          · simp at hext
  | placeholder => exact hregular.elim
  | quoted quote =>
      have hquote : Shape.ofFirst quote = .quoted quote := hregular
      cases hext
      by_cases hc : c = quote
      · simp [hc, hquote]
      · simp [hc, hquote]
  | closed quote =>
      have hquote : Shape.ofFirst quote = .quoted quote := hregular.1
      unfold extend? at hext
      dsimp only at hext
      split at hext
      · cases hext
        exact hquote
      · simp at hext
  | lineComment =>
      unfold extend? at hext
      dsimp only at hext
      split at hext
      · simp at hext
      · cases hext
        trivial
  | blockComment =>
      cases hext
      by_cases hc : c = '*'
      · simp [hc]
      · simp [hc]
  | blockStar =>
      cases hext
      by_cases hslash : c = '/'
      · simp [hslash]
      · by_cases hstar : c = '*'
        · simp [hstar]
        · simp [hslash, hstar]
  | blockEnd => simp [extend?] at hext

theorem regular_lexemesFrom (h : l.Regular) (s : Text) :
    ∀ m ∈ lexemesFrom together l s, m.Regular := by
  induction s generalizing l with
  | nil => simpa [lexemesFrom] using h
  | cons c s ih =>
      rw [lexemesFrom]
      cases hext : l.extend? together c with
      | some shape => exact ih (h.extend hext)
      | none => exact List.forall_mem_cons.2 ⟨h, ih (regular_ofChar c)⟩

theorem regular_of_mem (h : l ∈ lexemes together s) : l.Regular := by
  cases s with
  | nil => simp [lexemes] at h
  | cons c s => exact regular_lexemesFrom (regular_ofChar c) s l h

theorem joins_word (hc : isNameChar c = true) :
    together.joins s c = s.head?.any isNameChar := by
  cases s with
  | nil => rfl
  | cons d s =>
      have hop : d :: (s ++ [c]) ∉ Restate.Lexeme.operators :=
        not_operator_of_mem (c := c) (by simp) (.inl hc)
      simp [together, hc, not_isBlank_of_isNameChar hc, hop]

theorem joins_alone (hc : standsAlone c = true) : together.joins s c = false := by
  cases s with
  | nil => rfl
  | cons d s =>
      have hop : d :: (s ++ [c]) ∉ Restate.Lexeme.operators :=
        not_operator_of_mem (c := c) (by simp) (.inr hc)
      simp [together, not_class_of_standsAlone hc, hop]

theorem extend?_code (hc : isNameChar c = true ∨ standsAlone c = true) :
    extend? together ⟨.code, s⟩ c = if together.joins s c then some .code else none := by
  simp [extend?, ne_of_word_or_alone hc, show together.placeholders = false from rfl]

/-- Neither a word nor a character that stands alone continues a lexeme other than code, unless it
is open. -/
theorem Regular.extend?_other (h : l.Regular) (hcode : l.shape ≠ .code)
    (hc : isNameChar c = true ∨ standsAlone c = true) :
    l.extend? together c = none ↔ l.shape.isOpen = false := by
  obtain ⟨shape, text⟩ := l
  obtain ⟨hne, hregular⟩ := h
  cases shape with
  | code => exact absurd rfl hcode
  | placeholder => exact hregular.elim
  | quoted quote => simp [extend?, Shape.isOpen]
  | closed quote =>
      have hother : c ≠ quote := by
        rintro rfl
        have := not_isNameChar_of_quoted hregular.1
        simp [this] at hc
      simp [extend?, hother, Shape.isOpen]
  | lineComment => simp [extend?, ne_of_word_or_alone hc, Shape.isOpen]
  | blockComment => simp [extend?, Shape.isOpen]
  | blockStar => simp [extend?, Shape.isOpen]
  | blockEnd => simp [extend?, Shape.isOpen]

theorem Regular.getLast?_code (h : Regular ⟨.code, s⟩) :
    s.getLast?.any isNameChar = s.head?.any isNameChar := by
  obtain ⟨hne, hregular⟩ := h
  have hcode : ∀ d ∈ s, ∀ e ∈ s, isNameChar d = isNameChar e := hregular
  rw [List.getLast?_eq_getLast_of_ne_nil hne, List.head?_eq_some_head hne]
  exact hcode _ (List.getLast_mem hne) _ (List.head_mem hne)

/-- A lexeme other than code that is complete does not end in a character of a word. -/
theorem Regular.getLast?_other (h : l.Regular) (hcode : l.shape ≠ .code)
    (hopen : l.shape.isOpen = false) : l.text.getLast?.any isNameChar = false := by
  obtain ⟨shape, text⟩ := l
  obtain ⟨hne, hregular⟩ := h
  cases shape with
  | code => exact absurd rfl hcode
  | placeholder => exact hregular.elim
  | closed quote =>
      obtain ⟨hquote, hlast⟩ := hregular
      dsimp only at hlast ⊢
      rw [hlast]
      exact (not_isNameChar_of_quoted hquote).1
  | blockEnd =>
      have hlast : text.getLast? = some '/' := hregular
      dsimp only
      rw [hlast]
      decide
  | quoted | lineComment | blockComment | blockStar => simp [Shape.isOpen] at hopen

/-- A word goes on behind a lexeme that is open or ends in a character of a word. -/
theorem Regular.extend?_word (h : l.Regular) (hc : isNameChar c = true) :
    l.extend? together c = none ↔
      l.shape.isOpen = false ∧ l.text.getLast?.any isNameChar = false := by
  by_cases hcode : l.shape = .code
  · obtain ⟨shape, text⟩ := l
    obtain rfl : shape = .code := hcode
    rw [h.getLast?_code, extend?_code (.inl hc), joins_word hc]
    simp [Shape.isOpen]
  · rw [h.extend?_other hcode (.inl hc)]
    exact ⟨fun hopen => ⟨hopen, h.getLast?_other hcode hopen⟩, fun h => h.1⟩

/-- A character that stands alone belongs to an open lexeme only. -/
theorem Regular.extend?_alone (h : l.Regular) (hc : standsAlone c = true) :
    l.extend? together c = none ↔ l.shape.isOpen = false := by
  by_cases hcode : l.shape = .code
  · obtain ⟨shape, text⟩ := l
    obtain rfl : shape = .code := hcode
    rw [extend?_code (.inr hc), joins_alone hc]
    simp [Shape.isOpen]
  · exact h.extend?_other hcode (.inr hc)

/-- Nothing continues a character that stands alone. -/
theorem extend?_ofMark (hc : standsAlone c = true) (d : Char) :
    (ofMark c).extend? together d = none := by
  have hop : [c] ++ [d] ∉ Restate.Lexeme.operators :=
    not_operator_of_mem (c := c) (by simp) (.inr hc)
  have hclass := not_class_of_standsAlone hc
  have hjoins : together.joins [c] d = false := by
    simpa [together, hclass] using hop
  simp [extend?, ofMark, ne_of_word_or_alone (.inr hc), hjoins,
    show together.placeholders = false from rfl]

end Lexeme

section Texts

theorem flatMap_lexemesFrom (l : Lexeme) (s : Text) :
    (lexemesFrom together l s).flatMap Lexeme.text = l.text ++ s := by
  induction s generalizing l with
  | nil => simp [lexemesFrom]
  | cons c s ih =>
      rw [lexemesFrom]
      cases l.extend? together c with
      | some shape => rw [ih]; simp
      | none => rw [List.flatMap_cons, ih]; rfl

/-- The lexemes of a text, one after another, are the text. -/
theorem flatMap_lexemes (s : Text) : (lexemes together s).flatMap Lexeme.text = s := by
  cases s with
  | nil => rfl
  | cons c s => exact flatMap_lexemesFrom _ s

/-- The end of a text is that of its last lexeme. -/
theorem getLast?_eq (h : (lexemes together s).getLast? = some l) :
    s.getLast? = l.text.getLast? := by
  obtain ⟨front, hfront⟩ := List.getLast?_eq_some_iff.1 h
  have hne : l.text ≠ [] := (Lexeme.regular_of_mem (List.mem_of_getLast? h)).1
  have hs : s = front.flatMap Lexeme.text ++ l.text := by
    rw [← flatMap_lexemes s, hfront]
    simp
  rw [hs, List.getLast?_append_of_ne_nil _ hne]

theorem endsInWord_eq (h : (lexemes together s).getLast? = some l) :
    endsInWord s = l.text.getLast?.any isNameChar := by
  rw [endsInWord, getLast?_eq h]

theorem getLast?_lexemes (s : Text) :
    s = [] ∨ ∃ l, (lexemes together s).getLast? = some l ∧ l.Regular := by
  cases hlast : (lexemes together s).getLast? with
  | none =>
      left
      rw [← flatMap_lexemes s, List.getLast?_eq_none_iff.1 hlast]
      rfl
  | some l => exact .inr ⟨l, rfl, Lexeme.regular_of_mem (List.mem_of_getLast? hlast)⟩

theorem runsInto_cons_iff (h : (lexemes together p).getLast? = some l) :
    runsInto together p (c :: s) = false ↔ l.extend? together c = none := by
  simp [runsInto, h]

/-- A word stands apart from what is before it unless that ends in a word, or inside a quoted span
or a comment. -/
theorem runsInto_word_iff (hq : beginsWithWord q = true) :
    runsInto together p q = false ↔ endsInside p = false ∧ endsInWord p = false := by
  cases q with
  | nil => simp [beginsWithWord] at hq
  | cons c q =>
      have hc : isNameChar c = true := hq
      rcases getLast?_lexemes p with rfl | ⟨l, hlast, hregular⟩
      · exact iff_of_true rfl ⟨rfl, rfl⟩
      · rw [runsInto_cons_iff hlast, hregular.extend?_word hc, endsInWord_eq hlast, endsInside,
          hlast, Option.any_some]

/-- A character that stands alone is apart from what is before it unless that ends inside a quoted
span or a comment. -/
theorem runsInto_alone_iff (hc : standsAlone c = true) :
    runsInto together p (c :: q) = false ↔ endsInside p = false := by
  rcases getLast?_lexemes p with rfl | ⟨l, hlast, hregular⟩
  · exact iff_of_true rfl rfl
  · rw [runsInto_cons_iff hlast, hregular.extend?_alone hc, endsInside, hlast, Option.any_some]

/-- A text that is read up to such a character at its end runs into nothing. -/
theorem runsInto_of_alone {front : List Lexeme} (hc : standsAlone c = true)
    (h : lexemes together p = front ++ [Lexeme.ofMark c]) (q : Text) :
    runsInto together p q = false := by
  cases q with
  | nil => simp [runsInto]
  | cons d q =>
    rw [runsInto_cons_iff (l := Lexeme.ofMark c) (by simp [h]), Lexeme.extend?_ofMark hc]

/-- At the head of a text such a character is a lexeme of its own. -/
theorem lexemes_alone_cons (hc : standsAlone c = true) (s : Text) :
    lexemes together (c :: s) = Lexeme.ofMark c :: lexemes together s := by
  have hone : lexemes together [c] = [] ++ [Lexeme.ofMark c] := by
    rw [lexemes, Lexeme.ofChar, ofFirst_of_standsAlone hc]
    rfl
  rw [← List.singleton_append, lexemes_append (runsInto_of_alone hc hone s), hone]
  rfl

/-- Such a character and what follows it are read by themselves just if the text before does not end
inside a quoted span or a comment. -/
theorem lexemes_alone_iff (hc : standsAlone c = true) :
    lexemes together (p ++ c :: s) = lexemes together p ++ Lexeme.ofMark c :: lexemes together s ↔
      endsInside p = false := by
  rw [← lexemes_alone_cons hc, ← runsInto_alone_iff (q := s) hc]
  exact ⟨fun h => runsInto_eq_false_of_prefix (h ▸ List.prefix_append _ _), lexemes_append⟩

/-- A text is read by itself between two others just if it does not run into the one behind, nor
the one before into it. -/
theorem lexemes_between_iff {r : Text} :
    lexemes together (p ++ (q ++ r)) =
        lexemes together p ++ (lexemes together q ++ lexemes together r) ↔
      runsInto together p (q ++ r) = false ∧ runsInto together q r = false := by
  constructor
  · intro h
    have hp : runsInto together p (q ++ r) = false :=
      runsInto_eq_false_of_prefix (h ▸ List.prefix_append _ _)
    rw [lexemes_append hp, List.append_cancel_left_eq] at h
    exact ⟨hp, runsInto_eq_false_of_prefix (h ▸ List.prefix_append _ _)⟩
  · rintro ⟨hp, hq⟩
    rw [lexemes_append hp, lexemes_append hq]

/-- Characters of words are one word. -/
theorem lexemes_word (hne : s ≠ []) (h : s.all isNameChar = true) :
    lexemes together s = [Lexeme.word s] := by
  obtain ⟨c, s, rfl⟩ := List.exists_cons_of_ne_nil hne
  obtain ⟨hc, hs⟩ : isNameChar c = true ∧ s.all isNameChar = true := by simpa using h
  have hfirst : Lexeme.ofChar c = ⟨.code, [c]⟩ := by
    have hquotes : c ≠ '\x27' ∧ c ≠ '"' ∧ c ≠ backtick := by
      refine ⟨?_, ?_, ?_⟩ <;> rintro rfl <;> revert hc <;> decide
    simp [Lexeme.ofChar, Shape.ofFirst, hquotes]
  rw [lexemes, hfirst]
  refine lexemesFrom_eq_singleton (fun read => read.head? = some c) rfl ?_
  intro read hread d hd
  have hd := List.all_eq_true.1 hs d hd
  refine ⟨?_, by simp [hread]⟩
  rw [Lexeme.extend?_code (.inl hd), Lexeme.joins_word hd, hread]
  simp [hc]

theorem endsInside_word (h : s.all isNameChar = true) : endsInside s = false := by
  cases s with
  | nil => rfl
  | cons c s => rw [endsInside, lexemes_word (by simp) h]; rfl

/-- What follows a word belongs to it just if it begins with a character of a word. -/
theorem runsInto_of_word (hne : p ≠ []) (h : p.all isNameChar = true) :
    runsInto together p q = false ↔ beginsWithWord q = false := by
  cases q with
  | nil => simp [runsInto, beginsWithWord]
  | cons d q =>
      obtain ⟨c, p, rfl⟩ := List.exists_cons_of_ne_nil hne
      obtain ⟨hc, -⟩ : isNameChar c = true ∧ p.all isNameChar = true := by simpa using h
      have hop : c :: (p ++ [d]) ∉ Restate.Lexeme.operators :=
        not_operator_of_mem (c := c) (by simp) (.inl hc)
      have hjoins : together.joins (c :: p) d = isNameChar d := by
        simp [together, hc, not_isBlank_of_isNameChar hc, hop]
      rw [runsInto_cons_iff (l := Lexeme.word (c :: p)) (by simp [lexemes_word hne h])]
      simp [Lexeme.extend?, Lexeme.word, ne_of_word_or_alone (.inl hc), hjoins, beginsWithWord,
        show together.placeholders = false from rfl]

end Texts

end Restate.Sqlite
