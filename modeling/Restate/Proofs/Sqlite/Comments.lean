import Restate.Proofs.Sqlite.Marks

/-!
# Comments as SQLite reads them

A comment begins with two hyphens or with a slash and a star where a lexeme begins. Main statements:
where comments begin (`markAt_comment_eq_none_iff`), and when a text that is a comment by itself is
read as that comment between other texts (`marksIn_comment_iff`).
-/

namespace Restate.Sqlite

open Text

/-- The text of a comment. -/
def Lexeme.comment? (l : Lexeme) : Option Text :=
  if l.shape.isComment then some l.text else none

/-- The comments of a text in order. -/
def comments (s : Text) : List Text :=
  (lexemes apart s).filterMap Lexeme.comment?

/-- Whether a text begins with what opens a comment. -/
def opens : Text → Bool
  | '-' :: '-' :: _ => true
  | '/' :: '*' :: _ => true
  | _ => false

variable {before after p s : Text} {l : Lexeme} {c : Char} {shape : Shape}

theorem isComment_extend? (h : l.shape.isComment = true) (hext : l.extend? apart c = some shape) :
    shape.isComment = true := by
  obtain ⟨shape', read⟩ := l
  unfold Lexeme.extend? at hext
  cases shape' with
  | code => simp [Shape.isComment] at h
  | placeholder => simp [Shape.isComment] at h
  | quoted quote => simp [Shape.isComment] at h
  | closed quote => simp [Shape.isComment] at h
  | lineComment =>
      dsimp only at hext
      split at hext
      · simp at hext
      · cases hext
        rfl
  | blockComment =>
      cases hext
      split
      · rfl
      · rfl
  | blockStar =>
      cases hext
      split
      · rfl
      · split
        · rfl
        · rfl
  | blockEnd => simp at hext

/-- Only what opens a comment makes code one. -/
theorem not_isComment_extend? (h : l.shape.isComment = false)
    (hopens : opens (l.text ++ c :: s) = false) (hext : l.extend? apart c = some shape) :
    shape.isComment = false := by
  obtain ⟨shape', read⟩ := l
  unfold Lexeme.extend? at hext
  cases shape' with
  | code =>
      dsimp only at hext hopens
      split at hext
      · next hline =>
          rw [hline.1, hline.2] at hopens
          simp [opens] at hopens
      · split at hext
        · next hblock =>
            rw [hblock.1, hblock.2] at hopens
            simp [opens] at hopens
        · split at hext
          · cases hext
            rfl
          · simp [apart] at hext
  | placeholder =>
      dsimp only at hext
      split at hext
      · cases hext
        rfl
      · simp at hext
  | quoted quote =>
      cases hext
      split
      · rfl
      · rfl
  | closed quote => simp [apart] at hext
  | lineComment => simp [Shape.isComment] at h
  | blockComment => simp [Shape.isComment] at h
  | blockStar => simp [Shape.isComment] at h
  | blockEnd => simp [Shape.isComment] at h

theorem comment?_head_of_isComment (h : l.shape.isComment = true) (s : Text) :
    (lexemesFrom apart l s).head?.bind Lexeme.comment? ≠ none := by
  induction s generalizing l with
  | nil => simp [lexemesFrom, Lexeme.comment?, h]
  | cons c s ih =>
      rw [lexemesFrom]
      split
      · next hext => exact ih (isComment_extend? h hext)
      · simp [Lexeme.comment?, h]

theorem comment?_head_of_not_opens (h : l.shape.isComment = false)
    (hopens : opens (l.text ++ s) = false) :
    (lexemesFrom apart l s).head?.bind Lexeme.comment? = none := by
  -- what is read and what is left stay the same text, so nothing comes to open a comment
  induction s generalizing l with
  | nil => simp [lexemesFrom, Lexeme.comment?, h]
  | cons c s ih =>
      rw [lexemesFrom]
      split
      · next hext =>
          apply ih (not_isComment_extend? h hopens hext)
          simpa using hopens
      · simp [Lexeme.comment?, h]

/-- A comment begins where one is opened and a lexeme begins. -/
theorem markAt_comment_eq_none_iff :
    markAt Lexeme.comment? before c after = none ↔
      (runsInto apart before [c] = false → opens (c :: after) = false) := by
  unfold markAt
  cases hruns : runsInto apart before [c] with
  | true => simp
  | false =>
      have hcode : (Lexeme.ofChar c).shape.isComment = false := by
        unfold Lexeme.ofChar Shape.ofFirst
        split
        · rfl
        · rfl
      rw [if_neg (by simp)]
      constructor
      · intro hnone _
        unfold opens
        split
        · next s heq =>
            obtain ⟨rfl, rfl⟩ := List.cons.inj heq
            exact (comment?_head_of_isComment (l := ⟨.lineComment, ['-', '-']⟩) rfl s hnone).elim
        · next s heq =>
            obtain ⟨rfl, rfl⟩ := List.cons.inj heq
            exact (comment?_head_of_isComment (l := ⟨.blockComment, ['/', '*']⟩) rfl s hnone).elim
        · rfl
      · exact fun hopens => comment?_head_of_not_opens hcode (hopens rfl)

/-- A text that is one comment by itself is read as that comment just if it neither belongs to what
is before it nor takes anything of what is behind it. -/
theorem marksIn_comment_iff (hwhole : lexemes apart p = [⟨shape, p⟩])
    (hshape : shape.isComment = true) :
    marksIn Lexeme.comment? before p after = atFirst (some p) p ↔
      runsInto apart before p = false ∧ runsInto apart p after = false := by
  cases p with
  | nil => simp [lexemes] at hwhole
  | cons c s =>
      constructor
      · intro h
        have hmark : markAt Lexeme.comment? before c (s ++ after) = some (c :: s) :=
          (List.cons.inj h).1
        unfold markAt at hmark
        split at hmark
        · simp at hmark
        · next hruns =>
            refine ⟨Bool.eq_false_iff.2 hruns, ?_⟩
            have hlast : (lexemes apart (c :: s)).getLast? = some ⟨shape, c :: s⟩ := by
              simp [hwhole]
            obtain ⟨done, last, hdone, happend⟩ :=
              lexemesFrom_append apart (Lexeme.ofChar c) s after
            rw [lexemes, hdone, List.append_eq_singleton_iff] at hwhole
            obtain ⟨rfl, hsingle⟩ := hwhole.resolve_right (by simp)
            obtain rfl : last = ⟨shape, c :: s⟩ := List.singleton_inj.1 hsingle
            cases after with
            | nil => simp [runsInto]
            | cons d after =>
                rw [runsInto, hlast]
                cases hext : Lexeme.extend? apart ⟨shape, c :: s⟩ d with
                | none => simp [hext]
                | some shape' =>
                    -- the comment would be longer by the next character at least
                    obtain ⟨first, rest, heq, hle⟩ :=
                      head_lexemesFrom apart ⟨shape', c :: s ++ [d]⟩ after
                    rw [happend, List.nil_append, lexemesFrom] at hmark
                    simp only [hext, heq, List.head?_cons, Option.bind_some,
                      Lexeme.comment?] at hmark
                    split at hmark
                    · rw [Option.some.inj hmark] at hle
                      change (c :: s ++ [d]).length ≤ (c :: s).length at hle
                      rw [List.length_append, List.length_singleton] at hle
                      omega
                    · simp at hmark
      · rintro ⟨hbefore, hafter⟩
        rw [marksIn_eq_marks hbefore hafter (by simp), marks, hwhole]
        simp [Lexeme.comment?, hshape]

end Restate.Sqlite
