import Restate.Proofs.Lexing.Spelling
import Restate.Proofs.Schema.Reading
import Restate.Proofs.Sqlite.Reading

/-!
# The parts of an added column

A statement that adds a column is told from its tokens: which of them stay when it is restated,
which go, and what stands between them (`AddedColumn.parts`). SQLite reads every part in its place
just if no part runs into the next and no comment begins with a hash
(`AddedColumn.readsAs_written_iff`).
-/

namespace Restate

open Sqlite (lexemes together runsInto)

namespace AddedColumn

/-- What becomes of a significant token. -/
inductive Mark where
  /-- It stays; a literal is quoted anew. -/
  | keep
  /-- It is left out, with the gap before it. -/
  | drop
  /-- The type's word takes its place. -/
  | type (word : Text)
  deriving DecidableEq

/-- How many tokens stand before the type: `ALTER TABLE t ADD c`, perhaps with `COLUMN`. -/
def headLength (tokens : List Token) : Nat :=
  if Reading.beginsWith ["COLUMN"] (tokens.drop 4) then 6 else 5

/-- How many words a type has. -/
def typeWords (tokens : List Token) : Nat :=
  if Reading.beginsWith ["DOUBLE", "PRECISION"] tokens then 2 else 1

/-- The name a type has without its arguments and modifiers. -/
def typeName (tokens : List Token) : Text :=
  if typeWords tokens = 2 then "double precision".toList else (tokens.head?.map Token.text).getD []

/-- How many tokens a type takes: its words, its arguments and its modifiers. -/
def typeLength (tokens : List Token) : Nat :=
  let words := typeWords tokens
  let arguments := groupLength (tokens.drop words)
  words + arguments + modifiersLength (tokens.drop (words + arguments))

/-- How many tokens the clause takes that begins at the first token and is left out; none if no such
clause begins there. -/
def clauseLength (tokens : List Token) : Nat :=
  if Reading.beginsWith ["CHARACTER", "SET"] tokens then 2 + settingLength (tokens.drop 2)
  else if tokens.head?.any (·.isWord ["CHARSET", "COLLATE"]) then 1 + settingLength (tokens.drop 1)
  else if tokens.head?.any (·.isWord ["FIRST"]) then 1
  else if tokens.head?.any (·.isWord ["AFTER", "COMMENT"]) then 2
  else if Reading.beginsWith ["ON", "UPDATE"] tokens then 3 + groupLength (tokens.drop 3)
  else if tokens.head?.any (·.isWord ["AUTO_INCREMENT"]) then 1
  else 0

/-- The marks of the tokens behind the type. -/
def tailMarks (tokens : List Token) : List Mark :=
  match tokens with
  | [] => []
  | _ :: rest =>
    match clauseLength tokens with
    | 0 => .keep :: tailMarks rest
    | n + 1 => List.replicate (n + 1) .drop ++ tailMarks (rest.drop n)
termination_by tokens.length

/-- The marks of a statement's significant tokens, given the type's word. -/
def marks (word : Text) (tokens : List Token) : List Mark :=
  let type := tokens.drop (headLength tokens)
  List.replicate (headLength tokens) .keep
    ++ .type word :: List.replicate (typeLength type - 1) .drop
    ++ tailMarks (type.drop (typeLength type))

/-- A part of the restated text. -/
inductive Part where
  | token (t : Token)
  | type (word : Text)
  /-- White space, or a comment. -/
  | gap (t : Token)

namespace Part

def text : Part → Text
  | .token t => if t.kind = .string then quoteString t.value else t.text
  | .type word => word
  | .gap t => t.text

def isGap : Part → Bool
  | .gap _ => true
  | _ => false

end Part

/-- The parts that stay of a statement, given the marks of its significant tokens. Tokens without a
mark stay. -/
def weave : List Mark → List Token → List Part
  | _, [] => []
  | ms, t :: ts =>
    if t.isTrivia then
      if ms.head? = some .drop then weave ms ts else .gap t :: weave ms ts
    else
      match ms with
      | [] => .token t :: weave [] ts
      | .keep :: ms => .token t :: weave ms ts
      | .drop :: ms => weave ms ts
      | .type word :: ms => .type word :: weave ms ts

/-- The significant tokens of a statement without a semicolon at the end. -/
def body (tokens : List Token) : List Token :=
  Cursor.withoutSemicolon (significant tokens)

/-- The parts of the statement that adds a column, given the type's word. -/
def parts (word : Text) (tokens : List Token) : List Part :=
  weave (marks word (body tokens)) tokens

/-- Parts written one after another. -/
def written (parts : List Part) : Text :=
  parts.flatMap Part.text

/-- SQLite reads each part of the text in its place and as it is by itself, and nothing in the gaps.
It is not enough that the significant lexemes are the expected ones, which a comment that takes some
tokens and gives others back could bring about. -/
structure ReadsAs (out : Text) (parts : List Part) : Prop where
  inPlace : lexemes together out = parts.flatMap fun p => lexemes together p.text
  gaps : ∀ p ∈ parts, p.isGap = true → ∀ l ∈ lexemes together p.text, l.isTrivia = true

/-- No part runs into the one written next. -/
def Separate (parts : List Part) : Prop :=
  ((parts.map Part.text).filter (· ≠ [])).IsChain fun p q => runsInto together p q = false

instance (parts : List Part) : Decidable (Separate parts) :=
  inferInstanceAs (Decidable (List.IsChain _ _))

/-- A comment that SQLite does not know as one. -/
def Part.isHashComment : Part → Bool
  | .gap t => t.text.head? == some '#'
  | _ => false

@[simp]
theorem written_nil : written [] = [] :=
  rfl

@[simp]
theorem written_cons (p : Part) (ps : List Part) : written (p :: ps) = p.text ++ written ps :=
  rfl

@[simp]
theorem written_append (ps qs : List Part) : written (ps ++ qs) = written ps ++ written qs :=
  List.flatMap_append

theorem text_of_ne_string {t : Token} (h : t.kind ≠ .string) : (Part.token t).text = t.text := by
  simp [Part.text, h]

theorem weave_trivia {t : Token} (ht : t.isTrivia = true) (ms : List Mark) (ts : List Token) :
    weave ms (t :: ts) =
      if ms.head? = some .drop then weave ms ts else .gap t :: weave ms ts := by
  rw [weave.eq_def]
  simp only [ht, if_true]

theorem weave_nil {t : Token} (ht : t.isTrivia = false) (ts : List Token) :
    weave [] (t :: ts) = .token t :: weave [] ts := by
  simp [weave, ht]

theorem weave_keep {t : Token} (ht : t.isTrivia = false) (ms : List Mark) (ts : List Token) :
    weave (.keep :: ms) (t :: ts) = .token t :: weave ms ts := by
  simp [weave, ht]

theorem weave_drop {t : Token} (ht : t.isTrivia = false) (ms : List Mark) (ts : List Token) :
    weave (.drop :: ms) (t :: ts) = weave ms ts := by
  simp [weave, ht]

theorem weave_type {t : Token} (ht : t.isTrivia = false) (word : Text) (ms : List Mark)
    (ts : List Token) : weave (.type word :: ms) (t :: ts) = .type word :: weave ms ts := by
  simp [weave, ht]

/-- A gap before a token that stays is written as it is; before one that goes it goes. -/
theorem weave_gap {gap : List Token} (hgap : ∀ t ∈ gap, t.isTrivia = true) (ms : List Mark)
    (ts : List Token) :
    weave ms (gap ++ ts) =
      (if ms.head? = some .drop then [] else gap.map Part.gap) ++ weave ms ts := by
  induction gap with
  | nil => simp
  | cons t gap ih =>
      have ih := ih fun u hu => hgap u (by simp [hu])
      rw [List.cons_append, weave_trivia (hgap t (by simp)), ih]
      split
      · rfl
      · rfl

theorem written_gap (gap : List Token) : written (gap.map Part.gap) = sourceText gap := by
  simp [written, sourceText, List.flatMap_map, Part.text]

/-- Tokens without marks are written as they are, if no literal is among them. -/
theorem written_weave_nil {ts : List Token} (h : ∀ t ∈ significant ts, t.kind ≠ .string) :
    written (weave [] ts) = sourceText ts := by
  induction ts with
  | nil => rfl
  | cons t ts ih =>
      cases ht : t.isTrivia with
      | true =>
          have ih := ih fun u hu => h u (by simpa [significant, ht] using hu)
          simp [weave_trivia ht, ih, Part.text]
      | false =>
          have hsignificant : significant (t :: ts) = t :: significant ts := by
            simp [significant, ht]
          rw [hsignificant] at h
          have ih := ih fun u hu => h u (by simp [hu])
          simp [weave_nil ht, ih, text_of_ne_string (h t (by simp))]

/-- What a gap holds is nothing to SQLite, unless it is a comment that begins with a hash. -/
theorem gap_isTrivia_iff {t : Token} (hread : t.IsRead) (htrivia : t.isTrivia = true) :
    (∀ l ∈ lexemes together t.text, l.isTrivia = true) ↔ t.text.head? ≠ some '#' := by
  have hkind : t.kind = .whitespace ∨ t.kind = .comment := by
    cases hkind : t.kind <;> simp_all [Token.isTrivia, TokenKind.isTrivia]
  rcases hkind with hkind | hkind
  · have hblank := hread.blank hkind
    obtain ⟨_, c, s, rest, hlex⟩ := hread
    have hne := (takes_lexeme hlex).1
    have hhash : t.text.head? ≠ some '#' := by
      intro hhead
      have := hblank '#' (List.mem_of_mem_head? hhead)
      revert this
      decide
    rw [Sqlite.lexemes_blanks hne hblank]
    simpa [Sqlite.Lexeme.isTrivia, Sqlite.Shape.isComment, hhash] using hblank
  · rcases hread.comment hkind with hhash | ⟨s, htext, hline⟩ | ⟨body, cut, hclose, htext⟩
    · obtain ⟨s, htext⟩ := List.head?_eq_some_iff.1 hhash
      refine iff_of_false (fun h => ?_) (by simp [hhash])
      have := h _ (htext ▸ Sqlite.head_lexemes_hash s)
      revert this
      decide
    · refine iff_of_true ?_ (by simp [htext])
      rw [htext, Sqlite.lexemes_line hline]
      simp [Sqlite.Lexeme.isTrivia, Sqlite.Shape.isComment]
    · refine iff_of_true ?_ (by simp [htext])
      rw [htext, Sqlite.lexemes_block hclose]
      simp [Sqlite.Lexeme.isTrivia, Sqlite.Shape.isComment]

theorem mem_of_gap_mem_weave {t : Token} {ms : List Mark} {ts : List Token}
    (h : Part.gap t ∈ weave ms ts) : t ∈ ts ∧ t.isTrivia = true := by
  induction ts generalizing ms with
  | nil => simp [weave] at h
  | cons u ts ih =>
      suffices h : t = u ∧ u.isTrivia = true ∨ ∃ ms, Part.gap t ∈ weave ms ts by
        rcases h with ⟨rfl, ht⟩ | ⟨ms, h⟩
        · exact ⟨by simp, ht⟩
        · exact ⟨List.mem_cons_of_mem _ (ih h).1, (ih h).2⟩
      cases hu : u.isTrivia with
      | true =>
          rw [weave_trivia hu] at h
          split at h
          · exact .inr ⟨ms, h⟩
          · rcases List.mem_cons.1 h with heq | h
            · exact .inl ⟨by simpa using heq, rfl⟩
            · exact .inr ⟨ms, h⟩
      | false =>
          match ms with
          | [] =>
              rw [weave_nil hu] at h
              exact .inr ⟨_, by simpa using h⟩
          | .keep :: ms =>
              rw [weave_keep hu] at h
              exact .inr ⟨_, by simpa using h⟩
          | .drop :: ms =>
              rw [weave_drop hu] at h
              exact .inr ⟨_, h⟩
          | .type word :: ms =>
              rw [weave_type hu] at h
              exact .inr ⟨_, by simpa using h⟩

theorem written_eq_flatten (parts : List Part) :
    written parts = ((parts.map Part.text).filter (· ≠ [])).flatten := by
  rw [List.flatten_filter_ne_nil, written, List.flatMap_def]

theorem flatMap_lexemes (parts : List Part) :
    (parts.flatMap fun p => lexemes together p.text) =
      ((parts.map Part.text).filter (· ≠ [])).flatMap (lexemes together) := by
  induction parts with
  | nil => rfl
  | cons p parts ih =>
      rw [List.flatMap_cons, ih, List.map_cons, List.filter_cons]
      split
      · rfl
      · next hempty =>
          have : p.text = [] := by simpa using hempty
          rw [this]
          rfl

/-- Parts written one after another are read in their places just if none runs into the next. -/
theorem readsAs_written_iff {parts : List Part}
    (hgaps : ∀ t, Part.gap t ∈ parts → t.IsRead ∧ t.isTrivia = true) :
    ReadsAs (written parts) parts ↔
      Separate parts ∧ ∀ p ∈ parts, p.isHashComment = false := by
  have hplace : lexemes together (written parts) =
      (parts.flatMap fun p => lexemes together p.text) ↔
      Separate parts := by
    rw [written_eq_flatten, flatMap_lexemes]
    exact Sqlite.lexemes_flatten_iff fun p hp => by simpa using (List.mem_filter.1 hp).2
  have hgap : (∀ p ∈ parts, p.isGap = true → ∀ l ∈ lexemes together p.text, l.isTrivia = true) ↔
      ∀ p ∈ parts, p.isHashComment = false := by
    refine forall₂_congr ?_
    intro p hp
    cases p with
    | token t => simp [Part.isGap, Part.isHashComment]
    | type word => simp [Part.isGap, Part.isHashComment]
    | gap t =>
        obtain ⟨hread, htrivia⟩ := hgaps t hp
        simpa [Part.isGap, Part.isHashComment, Part.text] using gap_isTrivia_iff hread htrivia
  constructor
  · rintro ⟨hin, hnothing⟩
    exact ⟨hplace.1 hin, hgap.1 hnothing⟩
  · rintro ⟨hseparate, hhash⟩
    exact ⟨hplace.2 hseparate, hgap.2 hhash⟩

/-- Read in place, the text has the significant lexemes of the parts that are no gaps, in order. -/
theorem ReadsAs.significant {out : Text} {parts : List Part} (h : ReadsAs out parts) :
    (lexemes together out).filter (!·.isTrivia) =
      (parts.filter (!·.isGap)).flatMap fun p =>
        (lexemes together p.text).filter (!·.isTrivia) := by
  rw [h.inPlace]
  have hgaps := h.gaps
  clear h
  induction parts with
  | nil => rfl
  | cons p parts ih =>
      have ih := ih fun q hq => hgaps q (List.mem_cons_of_mem p hq)
      rw [List.flatMap_cons, List.filter_append, ih, List.filter_cons]
      cases hp : p.isGap with
      | true =>
          have hnone : (lexemes together p.text).filter (!·.isTrivia) = [] := by
            apply List.filter_eq_nil_iff.2
            intro l hl
            simp [hgaps p List.mem_cons_self hp l hl]
          rw [hnone]
          rfl
      | false => rfl

end AddedColumn

end Restate
