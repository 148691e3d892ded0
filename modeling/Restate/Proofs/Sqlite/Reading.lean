import Mathlib.Data.List.Chain
import Restate.Lexing

/-!
# How SQLite reads a text

SQLite cuts a text into lexemes character by character: a lexeme goes on as long as the next
character continues it, and otherwise the character begins the next one. Quotes are doubled inside
their span and nothing else escapes, two hyphens open a comment whatever follows them, and a hash
opens none. Main statement: texts written one after another are read as each of them is by itself
just if none of them runs into the next (`lexemes_flatten_iff`).
-/

namespace Restate.Sqlite

open Text

/-- What a lexeme is, as far as it has been read. -/
inductive Shape where
  /-- Code: a word, blanks, or a sign. -/
  | code
  /-- A colon and the name behind it. -/
  | placeholder
  /-- A quoted span whose end has not come. -/
  | quoted (quote : Char)
  /-- A quoted span that is complete unless the same quote follows. -/
  | closed (quote : Char)
  /-- A comment that ends with its line. -/
  | lineComment
  /-- A block comment whose end has not come. -/
  | blockComment
  /-- A block comment behind a star. -/
  | blockStar
  /-- A block comment that is complete. -/
  | blockEnd
  deriving DecidableEq, Repr

namespace Shape

/-- What a lexeme is by its first character alone. -/
def ofFirst (c : Char) : Shape :=
  if c = '\x27' ∨ c = '"' ∨ c = backtick then .quoted c else .code

def isComment : Shape → Bool
  | .lineComment | .blockComment | .blockStar | .blockEnd => true
  | _ => false

end Shape

structure Lexeme where
  shape : Shape
  text : Text
  deriving DecidableEq, Repr

/-- Comments and blanks, which carry no meaning. -/
def Lexeme.isTrivia (l : Lexeme) : Bool :=
  l.shape.isComment || l.shape == .code && l.text.all isBlank

/-- How code is cut into lexemes. -/
structure Rules where
  /-- Which characters continue a stretch of code, given the stretch so far. -/
  joins : Text → Char → Bool
  /-- Whether a colon and the word characters behind it are one lexeme. -/
  placeholders : Bool
  /-- Whether a doubled quote belongs to the span it stands in. Otherwise it ends one span and opens
  another, and the same characters are quoted. -/
  doubling : Bool

/-- Placeholders are read as a whole, and every other character of code by itself. -/
def apart : Rules where
  joins _ _ := false
  placeholders := true
  doubling := false

/-- Words, blanks and the longest operators stand together. -/
def together : Rules where
  joins read c :=
    match read with
    | [] => false
    | d :: _ =>
      isNameChar d && isNameChar c || isBlank d && isBlank c
        || Restate.Lexeme.operators.contains (read ++ [c])
  placeholders := false
  doubling := true

/-- What a lexeme becomes with one more character; nothing if the character does not belong to
it. -/
def Lexeme.extend? (rules : Rules) (l : Lexeme) (c : Char) : Option Shape :=
  match l.shape with
  | .code =>
    if l.text = ['-'] ∧ c = '-' then some .lineComment
    else if l.text = ['/'] ∧ c = '*' then some .blockComment
    else if rules.placeholders ∧ l.text = [':'] ∧ isWordChar c then some .placeholder
    else if rules.joins l.text c then some .code
    else none
  | .placeholder => if isWordChar c then some .placeholder else none
  | .quoted quote => some (if c = quote then .closed quote else .quoted quote)
  | .closed quote => if rules.doubling ∧ c = quote then some (.quoted quote) else none
  | .lineComment => if c = '\n' then none else some .lineComment
  | .blockComment => some (if c = '*' then .blockStar else .blockComment)
  | .blockStar =>
    some (if c = '/' then .blockEnd else if c = '*' then .blockStar else .blockComment)
  | .blockEnd => none

/-- The lexeme a character begins. -/
def Lexeme.ofChar (c : Char) : Lexeme :=
  ⟨Shape.ofFirst c, [c]⟩

/-- The lexemes of a text that goes on from a lexeme read in part. -/
def lexemesFrom (rules : Rules) (l : Lexeme) : Text → List Lexeme
  | [] => [l]
  | c :: s =>
    match l.extend? rules c with
    | some shape => lexemesFrom rules ⟨shape, l.text ++ [c]⟩ s
    | none => l :: lexemesFrom rules (Lexeme.ofChar c) s

def lexemes (rules : Rules) : Text → List Lexeme
  | [] => []
  | c :: s => lexemesFrom rules (Lexeme.ofChar c) s

/-- Whether the last lexeme of a text takes the first character of another with it. -/
def runsInto (rules : Rules) (p q : Text) : Bool :=
  ((lexemes rules p).getLast?.bind fun l => q.head?.bind (l.extend? rules)).isSome

variable {rules : Rules}

/-- Reading a text that goes on behind `p` is reading `p`, and going on from its last lexeme. -/
theorem lexemesFrom_append (rules : Rules) (l : Lexeme) (p q : Text) :
    ∃ done last, lexemesFrom rules l p = done ++ [last] ∧
      lexemesFrom rules l (p ++ q) = done ++ lexemesFrom rules last q := by
  induction p generalizing l with
  | nil => exact ⟨[], l, rfl, rfl⟩
  | cons c p ih =>
      rw [List.cons_append, lexemesFrom, lexemesFrom]
      cases l.extend? rules c with
      | some shape => exact ih _
      | none =>
          obtain ⟨done, last, hp, hpq⟩ := ih (Lexeme.ofChar c)
          exact ⟨l :: done, last, by simp [hp], by simp [hpq]⟩

/-- The first lexeme begins with what was read before. -/
theorem head_lexemesFrom (rules : Rules) (l : Lexeme) (s : Text) :
    ∃ first rest, lexemesFrom rules l s = first :: rest ∧ l.text.length ≤ first.text.length := by
  induction s generalizing l with
  | nil => exact ⟨l, [], rfl, le_rfl⟩
  | cons c s ih =>
      rw [lexemesFrom]
      cases l.extend? rules c with
      | some shape =>
          obtain ⟨first, rest, heq, hle⟩ := ih ⟨shape, l.text ++ [c]⟩
          refine ⟨first, rest, heq, le_trans ?_ hle⟩
          simp
      | none => exact ⟨l, _, rfl, le_rfl⟩

/-- A text that does not run into the next is read as if it ended there. -/
theorem lexemes_append {p q : Text} (h : runsInto rules p q = false) :
    lexemes rules (p ++ q) = lexemes rules p ++ lexemes rules q := by
  match p, q with
  | [], _ => rfl
  | a :: p, [] => simp [lexemes]
  | a :: p, c :: q =>
      obtain ⟨done, last, hdone, happend⟩ :=
        lexemesFrom_append rules (Lexeme.ofChar a) p (c :: q)
      have hlast : (lexemes rules (a :: p)).getLast? = some last := by simp [lexemes, hdone]
      have hnone : last.extend? rules c = none := by simpa [runsInto, hlast] using h
      rw [List.cons_append, lexemes, lexemes, lexemes, hdone, happend, lexemesFrom, hnone]
      simp

/-- A text that runs into the next loses its last lexeme to it. -/
theorem runsInto_eq_false_of_prefix {p q : Text} (h : lexemes rules p <+: lexemes rules (p ++ q)) :
    runsInto rules p q = false := by
  match p, q with
  | [], _ => rfl
  | a :: p, [] => simp [runsInto]
  | a :: p, c :: q =>
      obtain ⟨done, last, hdone, happend⟩ :=
        lexemesFrom_append rules (Lexeme.ofChar a) p (c :: q)
      have hlast : (lexemes rules (a :: p)).getLast? = some last := by simp [lexemes, hdone]
      rw [List.cons_append, lexemes, lexemes, hdone, happend, List.prefix_append_right_inj,
        lexemesFrom] at h
      cases hext : last.extend? rules c with
      | none => simp [runsInto, hlast, hext]
      | some shape =>
          -- the lexeme that begins with the last one and one more character is a longer one
          obtain ⟨first, rest, heq, hle⟩ :=
            head_lexemesFrom rules ⟨shape, last.text ++ [c]⟩ q
          simp only [hext] at h
          rw [heq, List.cons_prefix_cons] at h
          rw [← h.1] at hle
          simp only [List.length_append, List.length_singleton] at hle
          omega

theorem runsInto_append {p q r : Text} (hq : q ≠ []) :
    runsInto rules p (q ++ r) = runsInto rules p q := by
  obtain ⟨c, q, rfl⟩ := List.exists_cons_of_ne_nil hq
  simp [runsInto]

/-- Texts written one after another are read as each is by itself just if none runs into the
next. -/
theorem lexemes_flatten_iff {texts : List Text} (hne : ∀ p ∈ texts, p ≠ []) :
    lexemes rules texts.flatten = texts.flatMap (lexemes rules) ↔
      texts.IsChain fun p q => runsInto rules p q = false := by
  induction texts with
  | nil => simp [lexemes]
  | cons p texts ih =>
      cases texts with
      | nil => simp
      | cons q texts =>
          have hq : q ≠ [] := hne q (by simp)
          have ih := ih fun r hr => hne r (List.mem_cons_of_mem _ hr)
          rw [List.isChain_cons_cons, ← ih, List.flatten_cons, List.flatMap_cons]
          constructor
          · intro h
            have hrun := runsInto_eq_false_of_prefix (h ▸ List.prefix_append _ _)
            refine ⟨by rwa [List.flatten_cons, runsInto_append hq] at hrun, ?_⟩
            rwa [lexemes_append hrun, List.append_right_inj] at h
          · rintro ⟨hrun, h⟩
            rw [lexemes_append, h]
            rwa [List.flatten_cons, runsInto_append hq]

/-- Characters that all continue a lexeme make it longer, and nothing else. -/
theorem lexemesFrom_eq_singleton {shape : Shape} (P : Text → Prop) {read s : Text} (hread : P read)
    (hstep : ∀ read, P read → ∀ c ∈ s,
      Lexeme.extend? rules ⟨shape, read⟩ c = some shape ∧ P (read ++ [c])) :
    lexemesFrom rules ⟨shape, read⟩ s = [⟨shape, read ++ s⟩] := by
  induction s generalizing read with
  | nil => simp [lexemesFrom]
  | cons c s ih =>
      obtain ⟨hext, hnext⟩ := hstep read hread c (by simp)
      have := ih hnext fun read hread d hd => hstep read hread d (by simp [hd])
      simp [lexemesFrom, hext, this]

/-- Blanks are one lexeme. -/
theorem lexemes_blanks {s : Text} (hne : s ≠ []) (h : ∀ c ∈ s, isBlank c = true) :
    lexemes together s = [⟨.code, s⟩] := by
  obtain ⟨c, s, rfl⟩ := List.exists_cons_of_ne_nil hne
  have hcode : ∀ d, isBlank d = true →
      d ≠ '\x27' ∧ d ≠ '"' ∧ d ≠ backtick ∧ d ≠ '-' ∧ d ≠ '/' ∧ d ≠ ':' := by
    intro d hd
    refine ⟨?_, ?_, ?_, ?_, ?_, ?_⟩ <;> rintro rfl <;> revert hd <;> decide
  have hc := h c (by simp)
  obtain ⟨h₁, h₂, h₃, h₄, h₅, h₆⟩ := hcode c hc
  have hfirst : Lexeme.ofChar c = ⟨.code, [c]⟩ := by simp [Lexeme.ofChar, Shape.ofFirst, h₁, h₂, h₃]
  rw [lexemes, hfirst]
  refine lexemesFrom_eq_singleton (fun read => read.head? = some c) rfl ?_
  intro read hread d hd
  obtain ⟨read, rfl⟩ : ∃ more, read = c :: more := by
    cases read with
    | nil => simp at hread
    | cons e more => exact ⟨more, by simpa using hread⟩
  have hd := h d (by simp [hd])
  simp [Lexeme.extend?, together, h₄, h₅, h₆, hc, hd]

/-- Two hyphens and the rest of their line are a comment. -/
theorem lexemes_line {s : Text} (h : '\n' ∉ s) :
    lexemes rules ('-' :: '-' :: s) = [⟨.lineComment, '-' :: '-' :: s⟩] := by
  have : lexemesFrom rules ⟨.lineComment, ['-', '-']⟩ s = [⟨.lineComment, ['-', '-'] ++ s⟩] := by
    refine lexemesFrom_eq_singleton (fun _ => True) trivial ?_
    intro read _ c hc
    have : c ≠ '\n' := by
      rintro rfl
      exact h hc
    simp [Lexeme.extend?, this]
  simpa [lexemes, lexemesFrom, Lexeme.ofChar, Shape.ofFirst, Lexeme.extend?, backtick] using this

/-- What a block comment holds is read to its first end, where a star read last is not followed by
a slash. -/
theorem lexemesFrom_block (rules : Rules) {body : Text} {cut : Cut}
    (hclose : Restate.Lexeme.throughClose body = some cut) {shape : Shape}
    (hshape : shape = .blockComment ∨ shape = .blockStar ∧ body.head? ≠ some '/')
    (read : Text) :
    lexemesFrom rules ⟨shape, read⟩ cut.1 = [⟨.blockEnd, read ++ cut.1⟩] := by
  fun_induction Restate.Lexeme.throughClose body generalizing cut shape read with
  | case1 => simp at hclose
  | case2 s =>
      cases hclose
      rcases hshape with rfl | ⟨rfl, -⟩ <;> simp [lexemesFrom, Lexeme.extend?]
  | case3 c s hnot ih =>
      obtain ⟨rest, hrest, rfl⟩ := Option.map_eq_some_iff.1 hclose
      have hstep : Lexeme.extend? rules ⟨shape, read⟩ c =
          some (if c = '*' then .blockStar else .blockComment) := by
        rcases hshape with rfl | ⟨rfl, hhead⟩
        · rfl
        · have : c ≠ '/' := by simpa using hhead
          simp [Lexeme.extend?, this]
      have hnext : (if c = '*' then Shape.blockStar else .blockComment) = .blockComment ∨
          (if c = '*' then Shape.blockStar else .blockComment) = .blockStar ∧
            s.head? ≠ some '/' := by
        by_cases hc : c = '*'
        · refine .inr ⟨by simp [hc], fun hhead => ?_⟩
          cases s with
          | nil => simp at hhead
          | cons d s => exact hnot s hc (by simpa using hhead)
        · exact .inl (by simp [hc])
      have := ih hrest hnext (read ++ [c])
      simp only [Cut.after, List.singleton_append]
      rw [lexemesFrom, hstep]
      simpa using this

/-- A block comment through its first end is one comment. -/
theorem lexemes_block {body : Text} {cut : Cut}
    (h : Restate.Lexeme.throughClose body = some cut) :
    lexemes rules ('/' :: '*' :: cut.1) = [⟨.blockEnd, '/' :: '*' :: cut.1⟩] := by
  have := lexemesFrom_block rules h (.inl rfl) ['/', '*']
  simpa [lexemes, lexemesFrom, Lexeme.ofChar, Shape.ofFirst, Lexeme.extend?, backtick] using this

/-- A text between quotes in which every quote is doubled is one quoted span. -/
theorem lexemes_quoted {quote : Char} (hquote : Shape.ofFirst quote = .quoted quote) (s : Text) :
    lexemes together (quote :: (doubled quote s ++ [quote])) =
      [⟨.closed quote, quote :: (doubled quote s ++ [quote])⟩] := by
  have hfrom : ∀ read, lexemesFrom together ⟨.quoted quote, read⟩ (doubled quote s ++ [quote]) =
      [⟨.closed quote, read ++ (doubled quote s ++ [quote])⟩] := by
    induction s with
    | nil =>
        intro read
        simp [doubled, lexemesFrom, Lexeme.extend?]
    | cons c s ih =>
        intro read
        have hcons : doubled quote (c :: s) =
            (if c = quote then [quote, quote] else [c]) ++ doubled quote s := rfl
        by_cases hc : c = quote
        · -- the second quote takes the span back from its end
          rw [hcons, if_pos hc]
          simp [lexemesFrom, Lexeme.extend?, show together.doubling = true from rfl, ih]
        · rw [hcons, if_neg hc]
          simp [lexemesFrom, Lexeme.extend?, hc, ih]
  rw [lexemes, Lexeme.ofChar, hquote]
  exact hfrom [quote]

theorem lexemes_quoteIdentifier (name : Text) :
    lexemes together (quoteIdentifier name) = [⟨.closed '"', quoteIdentifier name⟩] :=
  lexemes_quoted rfl name

theorem lexemes_quoteString (value : Text) :
    lexemes together (quoteString value) = [⟨.closed '\x27', quoteString value⟩] :=
  lexemes_quoted rfl value

/-- A hash is code. -/
theorem head_lexemes_hash (s : Text) :
    ⟨.code, ['#']⟩ ∈ lexemes together ('#' :: s) := by
  cases s with
  | nil => simp [lexemes, lexemesFrom, Lexeme.ofChar, Shape.ofFirst, backtick]
  | cons c s =>
      have : Lexeme.extend? together ⟨.code, ['#']⟩ c = none := by
        have hname : isNameChar '#' = false := by decide
        have hblank : isBlank '#' = false := by decide
        simp [Lexeme.extend?, together, hname, hblank, Restate.Lexeme.operators]
      simp [lexemes, lexemesFrom, Lexeme.ofChar, Shape.ofFirst, backtick, this]

end Restate.Sqlite
