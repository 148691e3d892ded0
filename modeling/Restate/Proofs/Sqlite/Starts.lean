import Restate.Proofs.Sqlite.Marks
import Restate.Proofs.Sqlite.Placeholders

/-!
# Where placeholders begin

Every character of a text with the name of the placeholder that begins there, if one does. Main
statement: a placeholder begins with each colon that stands outside quoted spans and comments and
has a word character behind it, and nowhere else (`starts_eq`).
-/

namespace Restate.Sqlite

open Text

/-- For each character of a text, the name of the placeholder that begins there. -/
def starts (s : Text) : List (Option Text) :=
  (lexemes apart s).flatMap fun l => atFirst l.name? l.text

/-- What is read next stands outside quoted spans and comments, so that a colon is code. -/
def Outside (before : Text) : Prop :=
  runsInto apart before [':'] = false

instance (before : Text) : Decidable (Outside before) :=
  inferInstanceAs (Decidable (_ = false))

/-- The name of the placeholder that begins with a character, by what stands before and after. -/
def nameAt (before : Text) (c : Char) (after : Text) : Option Text :=
  if c = ':' ∧ Outside before ∧ after.head?.any isWordChar = true then
    some (after.takeWhile isWordChar)
  else none

/-- The names of the placeholders that begin in a text, by what stands before and after. -/
def namesAt (before : Text) : Text → Text → List (Option Text)
  | [], _ => []
  | c :: s, after => nameAt before c (s ++ after) :: namesAt (before ++ [c]) s after

variable {before after p s : Text} {l : Lexeme} {c : Char}

section Lexemes

/-- What is no colon does not begin a placeholder, whatever it goes on with. -/
theorem name?_head_lexemesFrom (hne : l.text ≠ []) (hshape : l.shape ≠ .placeholder)
    (hcolon : l.text ≠ [':']) (s : Text) :
    (lexemesFrom apart l s).head?.bind Lexeme.name? = none := by
  induction s generalizing l with
  | nil => simp [lexemesFrom, name?_eq_none hshape]
  | cons c s ih =>
      rw [lexemesFrom]
      split
      · next shape hext =>
          refine ih (by simp) ?_ ?_
          · rintro rfl
            exact (eq_colon_of_extend? hext).elim hshape hcolon
          · intro h
            have hlength := congrArg List.length h
            simp [hne] at hlength
      · simp [name?_eq_none hshape]

/-- The name of the placeholder that the lexeme a character begins turns out to be. -/
theorem name?_head_lexemes (hfresh : c = ':' → Outside before) (s : Text) :
    (lexemesFrom apart (Lexeme.ofChar c) s).head?.bind Lexeme.name? = nameAt before c s := by
  by_cases hc : c = ':'
  · subst hc
    have hcolon : Lexeme.ofChar ':' = ⟨.code, [':']⟩ := by decide
    cases s with
    | nil => simp [hcolon, lexemesFrom, nameAt, Lexeme.name?]
    | cons d s =>
        cases hd : isWordChar d with
        | true =>
            have hext : Lexeme.extend? apart ⟨.code, [':']⟩ d = some .placeholder := by
              simp [Lexeme.extend?, apart, hd]
            rw [hcolon, lexemesFrom, hext]
            simp [lexemesFrom_placeholder, Lexeme.name?, nameAt, hfresh rfl, hd]
        | false =>
            have hext : Lexeme.extend? apart ⟨.code, [':']⟩ d = none := by
              simp [Lexeme.extend?, apart, hd]
            rw [hcolon, lexemesFrom, hext]
            simp [Lexeme.name?, nameAt, hd]
  · rw [name?_head_lexemesFrom (by simp [Lexeme.ofChar]) (ofChar_shape_ne c)
      (by simpa [Lexeme.ofChar] using hc), nameAt, if_neg (by simp [hc])]

/-- A character is marked with the placeholder that begins there. -/
theorem nameAt_eq (before : Text) (c : Char) (after : Text) :
    nameAt before c after = markAt Lexeme.name? before c after := by
  rw [markAt]
  split
  · next hruns =>
      apply if_neg
      rintro ⟨rfl, houtside, -⟩
      rw [houtside] at hruns
      simp at hruns
  · next hruns =>
      rw [name?_head_lexemes]
      rintro rfl
      exact Bool.eq_false_iff.2 hruns

theorem namesAt_eq (before s after : Text) :
    namesAt before s after = marksIn Lexeme.name? before s after := by
  induction s generalizing before with
  | nil => rfl
  | cons c s ih => rw [namesAt, marksIn, nameAt_eq, ih]

/-- A placeholder begins with each colon outside of spans and comments that a word character
follows. -/
theorem starts_eq (s : Text) : starts s = namesAt [] s [] :=
  (marks_eq Lexeme.name? s).trans (namesAt_eq [] s []).symm

end Lexemes

end Restate.Sqlite
