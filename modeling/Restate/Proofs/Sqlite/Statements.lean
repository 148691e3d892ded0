import Restate.Proofs.Sqlite.Starts

/-!
# Where SQLite separates statements

A semicolon ends a statement where it stands outside quoted spans and comments. Main statement:
statements written with a semicolon behind each are separated into themselves if none holds a
semicolon of its own (`splitOnP_terminated_iff`), and the semicolon behind a text is read as one if
the text ends outside quoted spans and comments (`lexemes_terminated_iff`).
-/

namespace Restate.Sqlite

open Text

def semicolon : Lexeme :=
  ⟨.code, [';']⟩

/-- What is read of a text without comments and blanks. -/
def code (s : Text) : List Lexeme :=
  (lexemes apart s).filter fun l => !l.isTrivia

/-- What stands between the semicolons of a text; what follows the last one comes last. -/
def statements (s : Text) : List (List Lexeme) :=
  (code s).splitOnP (· == semicolon)

/-- What follows a text is read as if it stood by itself. -/
def Closed (p : Text) : Prop :=
  ∀ r, lexemes apart (p ++ r) = lexemes apart p ++ lexemes apart r

/-- The text is empty, or a comment through the end of its line. -/
def IsCommentLine (p : Text) : Prop :=
  p = [] ∨ ∃ s, '\n' ∉ s ∧ p = '-' :: '-' :: s ++ ['\n']

variable {p q s : Text}

section Closed

theorem Closed.append (hp : Closed p) (hq : Closed q) : Closed (p ++ q) := by
  intro r
  rw [List.append_assoc, hp, hp, hq, List.append_assoc]

theorem closed_lone {c : Char} (hc : isLone c = true) : Closed [c] := by
  intro r
  rw [List.singleton_append, lexemes_lone hc, lexemes_lone hc]
  rfl

theorem lexemes_commentLine (hs : '\n' ∉ s) :
    lexemes apart ('-' :: '-' :: s ++ ['\n']) =
      [⟨.lineComment, '-' :: '-' :: s⟩, ⟨.code, ['\n']⟩] := by
  rw [lexemes_append, lexemes_line hs, lexemes_lone (by decide)]
  · rfl
  · simp [runsInto, lexemes_line hs, Lexeme.extend?]

theorem IsCommentLine.closed (h : IsCommentLine p) : Closed p := by
  intro r
  rcases h with rfl | ⟨s, hs, rfl⟩
  · rfl
  · have hbreak : lexemes apart (['\n'] ++ r) = ⟨.code, ['\n']⟩ :: lexemes apart r :=
      lexemes_lone (by decide) r
    rw [lexemes_commentLine hs, List.append_assoc, lexemes_append, lexemes_line hs, hbreak]
    · rfl
    · simp [runsInto, lexemes_line hs, Lexeme.extend?]

theorem IsCommentLine.code_eq (h : IsCommentLine p) : code p = [] := by
  unfold code
  rcases h with rfl | ⟨s, hs, rfl⟩
  · rfl
  · rw [lexemes_commentLine hs]
    have hblank : isBlank '\n' = true := by decide
    simp [Lexeme.isTrivia, Shape.isComment, hblank]

end Closed

section Terminated

/-- A semicolon continues the same lexemes as a colon: open spans and comments. -/
theorem extend?_semicolon_iff (l : Lexeme) :
    l.extend? apart ';' = none ↔ l.extend? apart ':' = none := by
  have hsemicolon : isWordChar ';' = false := by decide
  have hcolon : isWordChar ':' = false := by decide
  obtain ⟨shape, read⟩ := l
  cases shape with
  | code => simp [Lexeme.extend?, apart, hsemicolon, hcolon]
  | placeholder => simp [Lexeme.extend?, hsemicolon, hcolon]
  | quoted quote => simp [Lexeme.extend?]
  | closed quote => simp [Lexeme.extend?, apart]
  | lineComment => simp [Lexeme.extend?]
  | blockComment => simp [Lexeme.extend?]
  | blockStar => simp [Lexeme.extend?]
  | blockEnd => simp [Lexeme.extend?]

theorem runsInto_semicolon_iff : runsInto apart p (';' :: s) = false ↔ Outside p := by
  unfold Outside runsInto
  cases (lexemes apart p).getLast? with
  | none => simp
  | some l => simpa using extend?_semicolon_iff l

/-- The semicolon behind a text is read as one just if the text ends outside quoted spans and
comments. -/
theorem lexemes_terminated_iff {after : List Lexeme} :
    lexemes apart (p ++ ';' :: s) = lexemes apart p ++ semicolon :: after ↔
      Outside p ∧ lexemes apart s = after := by
  have hsemicolon : lexemes apart (';' :: s) = semicolon :: lexemes apart s :=
    lexemes_lone (by decide) s
  constructor
  · intro h
    have houtside : Outside p := by
      rw [← runsInto_semicolon_iff (s := s)]
      exact runsInto_eq_false_of_prefix (h ▸ List.prefix_append _ _)
    refine ⟨houtside, ?_⟩
    rw [lexemes_append (runsInto_semicolon_iff.2 houtside), hsemicolon] at h
    exact (List.cons.inj (List.append_cancel_left h)).2
  · rintro ⟨houtside, rfl⟩
    rw [lexemes_append (runsInto_semicolon_iff.2 houtside), hsemicolon]

variable {α : Type} {f : α → Bool}

theorem not_of_mem_splitOnP {xs : List α} :
    ∀ part ∈ xs.splitOnP f, ∀ x ∈ part, f x = false := by
  induction xs with
  | nil => simp
  | cons x xs ih =>
      rw [List.splitOnP_cons_eq_if_modifyHead]
      cases hx : f x with
      | true => simpa using ih
      | false =>
          cases hsplit : xs.splitOnP f with
          | nil => exact (List.splitOnP_ne_nil f xs hsplit).elim
          | cons part parts =>
              rw [hsplit] at ih
              simpa [hx] using ih

/-- Parts with a separator behind each are separated into themselves just if they hold none. -/
theorem splitOnP_terminated_iff {separator : α} (hseparator : f separator = true)
    (parts : List (List α)) :
    (parts.flatMap (· ++ [separator])).splitOnP f = parts ++ [[]] ↔
      ∀ part ∈ parts, ∀ x ∈ part, f x = false := by
  constructor
  · intro h part hpart
    have hmem : part ∈ (parts.flatMap (· ++ [separator])).splitOnP f := by
      rw [h]
      exact List.mem_append_left _ hpart
    exact not_of_mem_splitOnP part hmem
  · intro h
    induction parts with
    | nil => rfl
    | cons part parts ih =>
        obtain ⟨hpart, hparts⟩ := List.forall_mem_cons.1 h
        rw [List.flatMap_cons, List.append_assoc, List.singleton_append,
          List.splitOnP_append_cons_of_forall_mem hpart separator hseparator, ih hparts]
        rfl

end Terminated

end Restate.Sqlite
