import Restate.Proofs.Sqlite.Reading

/-!
# What begins at each character of a text

A reader finds things in a text, such as placeholders or comments, each of which is one lexeme. The
text is marked with them: each character carries what begins there, if anything does. Main
statement: what a character is marked with depends on whether a lexeme begins there, and on what is
written from there on (`marks_eq`).
-/

namespace Restate.Sqlite

open Text

/-- A name at the first character of a text, and nothing at the others. -/
def atFirst (name : Option Text) : Text → List (Option Text)
  | [] => []
  | _ :: s => name :: List.replicate s.length none

/-- For each character of a text, what `find` finds in the lexeme that begins there. -/
def marks (find : Lexeme → Option Text) (s : Text) : List (Option Text) :=
  (lexemes apart s).flatMap fun l => atFirst (find l) l.text

/-- What a character is marked with, by what stands before and after. -/
def markAt (find : Lexeme → Option Text) (before : Text) (c : Char) (after : Text) : Option Text :=
  if runsInto apart before [c] then none
  else (lexemesFrom apart (Lexeme.ofChar c) after).head?.bind find

/-- What the characters of a text are marked with, by what stands before and after. -/
def marksIn (find : Lexeme → Option Text) (before : Text) : Text → Text → List (Option Text)
  | [], _ => []
  | c :: s, after => markAt find before c (s ++ after) :: marksIn find (before ++ [c]) s after

variable {find : Lexeme → Option Text} {before after p s : Text} {l : Lexeme} {c : Char}

section AtFirst

theorem length_atFirst (name : Option Text) (s : Text) : (atFirst name s).length = s.length := by
  cases s with
  | nil => rfl
  | cons c s => simp [atFirst]

theorem atFirst_append (name : Option Text) (hne : p ≠ []) :
    atFirst name (p ++ s) = atFirst name p ++ List.replicate s.length none := by
  obtain ⟨c, p, rfl⟩ := List.exists_cons_of_ne_nil hne
  simp [atFirst]

theorem atFirst_none (s : Text) : atFirst none s = List.replicate s.length none := by
  cases s with
  | nil => rfl
  | cons c s => rfl

theorem filterMap_atFirst (name : Option Text) (hne : s ≠ []) :
    (atFirst name s).filterMap id = name.toList := by
  obtain ⟨c, s, rfl⟩ := List.exists_cons_of_ne_nil hne
  cases name with
  | none => simp [atFirst]
  | some name => simp [atFirst]

/-- The names at the first characters of texts, where an empty text has no name. -/
theorem filterMap_flatMap_atFirst {α : Type} {name : α → Option Text} {text : α → Text}
    {l : List α} (h : ∀ a ∈ l, text a = [] → name a = none) :
    (l.flatMap fun a => atFirst (name a) (text a)).filterMap id = l.filterMap name := by
  induction l with
  | nil => rfl
  | cons a l ih =>
      obtain ⟨ha, hl⟩ := List.forall_mem_cons.1 h
      have hfirst : (atFirst (name a) (text a)).filterMap id = (name a).toList := by
        by_cases hnil : text a = []
        · rw [ha hnil, hnil]
          rfl
        · exact filterMap_atFirst _ hnil
      rw [List.flatMap_cons, List.filterMap_append, hfirst, ih hl]
      cases hname : name a with
      | none => rw [List.filterMap_cons_none hname]; rfl
      | some name => rw [List.filterMap_cons_some hname]; rfl

end AtFirst

theorem length_marksIn (find : Lexeme → Option Text) (before s after : Text) :
    (marksIn find before s after).length = s.length := by
  induction s generalizing before with
  | nil => rfl
  | cons c s ih => simp [marksIn, ih]

theorem marksIn_append (find : Lexeme → Option Text) (before p s after : Text) :
    marksIn find before (p ++ s) after =
      marksIn find before p (s ++ after) ++ marksIn find (before ++ p) s after := by
  induction p generalizing before with
  | nil => simp [marksIn]
  | cons c p ih => simp [marksIn, ih]

/-- A text carries no mark just if none of its characters does. -/
theorem marksIn_eq_none_iff :
    marksIn find before s after = List.replicate s.length none ↔
      ∀ t c r, s = t ++ c :: r → markAt find (before ++ t) c (r ++ after) = none := by
  induction s generalizing before with
  | nil => simp [marksIn]
  | cons c s ih =>
      rw [marksIn, List.length_cons, List.replicate_succ, List.cons.injEq, ih]
      constructor
      · rintro ⟨hfirst, hrest⟩ t d r heq
        cases t with
        | nil =>
            obtain ⟨rfl, rfl⟩ := List.cons.inj heq
            simpa using hfirst
        | cons e t =>
            obtain ⟨rfl, rfl⟩ := List.cons.inj heq
            simpa using hrest t d r rfl
      · intro h
        refine ⟨by simpa using h [] c s rfl, ?_⟩
        rintro t d r rfl
        simpa using h (c :: t) d r rfl

section Lexemes

theorem ne_nil_of_mem_lexemesFrom (hne : l.text ≠ []) :
    ∀ m ∈ lexemesFrom apart l s, m.text ≠ [] := by
  induction s generalizing l with
  | nil => simpa [lexemesFrom] using hne
  | cons c s ih =>
      rw [lexemesFrom]
      split
      · exact ih (by simp)
      · exact List.forall_mem_cons.2 ⟨hne, ih (by simp [Lexeme.ofChar])⟩

theorem ne_nil_of_mem_lexemes (s : Text) : ∀ m ∈ lexemes apart s, m.text ≠ [] := by
  cases s with
  | nil => simp [lexemes]
  | cons c s => exact ne_nil_of_mem_lexemesFrom (by simp [Lexeme.ofChar])

/-- What a text is marked with is what is found in its lexemes. -/
theorem filterMap_marks (find : Lexeme → Option Text) (s : Text) :
    (marks find s).filterMap id = (lexemes apart s).filterMap find := by
  apply filterMap_flatMap_atFirst
  intro l hl hnil
  exact (ne_nil_of_mem_lexemes s l hl hnil).elim

/-- Reading goes on from the last lexeme. -/
theorem getLast?_lexemes_concat (hlast : (lexemes apart before).getLast? = some l) (c : Char) :
    (lexemes apart (before ++ [c])).getLast? = (lexemesFrom apart l [c]).getLast? := by
  cases before with
  | nil => simp [lexemes] at hlast
  | cons a p =>
      obtain ⟨done, last, hdone, happend⟩ := lexemesFrom_append apart (Lexeme.ofChar a) p [c]
      obtain ⟨done', last', hdone', -⟩ := lexemesFrom_append apart l [c] []
      rw [lexemes, hdone, List.getLast?_concat] at hlast
      cases hlast
      rw [List.cons_append, lexemes, happend, hdone', ← List.append_assoc, List.getLast?_concat,
        List.getLast?_concat]

theorem runsInto_singleton (hlast : (lexemes apart before).getLast? = some l) (c : Char) :
    runsInto apart before [c] = (l.extend? apart c).isSome := by
  simp [runsInto, hlast]

/-- Behind the lexeme read last, a character is marked if it does not belong to the lexeme before
it. -/
theorem marks_lexemesFrom (hlast : (lexemes apart before).getLast? = some l)
    (hne : l.text ≠ []) (s : Text) :
    ((lexemesFrom apart l s).flatMap fun m => atFirst (find m) m.text) =
      atFirst ((lexemesFrom apart l s).head?.bind find) l.text ++ marksIn find before s [] := by
  induction s generalizing l before with
  | nil => simp [lexemesFrom, marksIn]
  | cons c s ih =>
      have hruns := runsInto_singleton hlast c
      rw [lexemesFrom, marksIn, List.append_nil, markAt, hruns]
      cases hext : l.extend? apart c with
      | some shape =>
          have hnext : (lexemes apart (before ++ [c])).getLast? = some ⟨shape, l.text ++ [c]⟩ := by
            simp [getLast?_lexemes_concat hlast, lexemesFrom, hext]
          rw [ih hnext (by simp), atFirst_append _ hne]
          simp
      | none =>
          have hnext : (lexemes apart (before ++ [c])).getLast? = some (Lexeme.ofChar c) := by
            simp [getLast?_lexemes_concat hlast, lexemesFrom, hext]
          rw [List.flatMap_cons, ih hnext (by simp [Lexeme.ofChar])]
          rfl

theorem marks_eq (find : Lexeme → Option Text) (s : Text) :
    marks find s = marksIn find [] s [] := by
  cases s with
  | nil => rfl
  | cons c s =>
      have hlast : (lexemes apart [c]).getLast? = some (Lexeme.ofChar c) := rfl
      rw [marks, lexemes, marks_lexemesFrom hlast (by simp [Lexeme.ofChar]), marksIn,
        List.append_nil]
      rfl

theorem length_marks (find : Lexeme → Option Text) (s : Text) :
    (marks find s).length = s.length := by
  rw [marks_eq, length_marksIn]

/-- A text that nothing runs into, and that runs into nothing, is marked as by itself. -/
theorem marksIn_eq_marks (hbefore : runsInto apart before p = false)
    (hafter : runsInto apart p after = false) (hp : p ≠ []) :
    marksIn find before p after = marks find p := by
  have hlong : runsInto apart before (p ++ after) = false := by
    rwa [runsInto_append hp]
  have hmarks : marks find (before ++ (p ++ after)) =
      marks find before ++ (marks find p ++ marks find after) := by
    unfold marks
    rw [lexemes_append hlong, lexemes_append hafter, List.flatMap_append, List.flatMap_append]
  have hparts := marks_eq find (before ++ (p ++ after))
  rw [hmarks, marksIn_append, marksIn_append, List.append_nil, List.append_nil,
    List.nil_append] at hparts
  have hlength : (marks find before).length = (marksIn find [] before (p ++ after)).length := by
    rw [length_marks, length_marksIn]
  have hrest := (List.append_inj hparts hlength).2
  have hlength : (marks find p).length = (marksIn find before p after).length := by
    rw [length_marks, length_marksIn]
  exact (List.append_inj hrest hlength).1.symm

end Lexemes

end Restate.Sqlite
