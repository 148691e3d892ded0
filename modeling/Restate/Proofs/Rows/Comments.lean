import Restate.Proofs.Lexing.Trimming
import Restate.Proofs.Rows.Placeholders
import Restate.Proofs.Sqlite.Comments

/-!
# Comments of a restated statement

Comments are written as they were read, and so is what stands between them, with no look at what
SQLite makes of it: two hyphens of code open a comment there, a hash opens none, and a line comment
goes on behind a call that has lost the newline. Main statement: `restate_comments_iff`.
-/

namespace Restate

open Text Sqlite

/-- The text of a comment. -/
def Token.comment? (t : Token) : Option Text :=
  if t.kind = .comment then some t.text else none

theorem comment?_of_kind {t : Token} (h : t.kind ≠ .comment) : t.comment? = none :=
  if_neg h

theorem comment?_of_bare {t : Token} (h : t.kind.isBare = true) : t.comment? = none := by
  apply comment?_of_kind
  intro hkind
  simp [hkind, TokenKind.isBare] at h

namespace Rows

/-- The text of a comment. -/
def Part.comment? (p : Part) : Option Text :=
  if p.role = .comment then some p.text else none

/-- The comments among the parts. -/
def comments (parts : List Part) : List Text :=
  parts.filterMap Part.comment?

/-- For each character of the parts, the comment that is meant to begin there. -/
def commentStarts (parts : List Part) : List (Option Text) :=
  parts.flatMap fun p => atFirst p.comment? p.text

/-- A comment begins with no hash, belongs to nothing before it, and takes nothing of what is
written behind it. In any other part no comment is opened where a lexeme begins. -/
def Part.Keeps (before : Text) (p : Part) (after : Text) : Prop :=
  if p.role = .comment then
    p.text.head? ≠ some '#' ∧ runsInto apart before p.text = false ∧
      runsInto apart p.text after = false
  else ∀ s c r, p.text = s ++ c :: r → runsInto apart (before ++ s) [c] = false →
    opens (c :: r ++ after) = false

/-- A comment begins with no hash and takes nothing of what is written behind it. -/
def Part.Ends (p : Part) (after : Text) : Prop :=
  p.role = .comment → p.text.head? ≠ some '#' ∧ runsInto apart p.text after = false

/-- The comments among the parts end, with what is written behind all parts. -/
def EndBefore (after : Text) (parts : List Part) : Prop :=
  Along (fun p s => p.Ends (s ++ after)) parts

/-- What is meant as a comment is spelled as one. -/
def Part.Spelled (p : Part) : Prop :=
  p.role = .comment → Restate.Lexeme.IsComment p.text

end Rows

namespace Lexeme.IsComment

variable {s after : Text}

/-- A comment that begins with no hash is one for SQLite. -/
theorem whole (h : IsComment s) (hhash : s.head? ≠ some '#') :
    ∃ shape : Shape, shape.isComment = true ∧ lexemes apart s = [⟨shape, s⟩] := by
  rcases h with hhead | ⟨r, rfl, hline⟩ | ⟨body, cut, hclose, rfl⟩
  · exact (hhash hhead).elim
  · exact ⟨.lineComment, rfl, lexemes_line hline⟩
  · exact ⟨.blockEnd, rfl, lexemes_block hclose⟩

theorem exists_cons (h : IsComment s) : ∃ c r, s = c :: r ∧ isBlank c = false := by
  rcases h with hhead | ⟨r, rfl, hline⟩ | ⟨body, cut, hclose, rfl⟩
  · obtain ⟨r, rfl⟩ := List.head?_eq_some_iff.1 hhead
    exact ⟨'#', r, rfl, by decide⟩
  · exact ⟨'-', _, rfl, by decide⟩
  · exact ⟨'/', _, rfl, by decide⟩

theorem not_blank (h : IsComment s) : s.all isBlank = false := by
  obtain ⟨c, r, rfl, hc⟩ := h.exists_cons
  simp [hc]

theorem dropWhile_eq (h : IsComment s) : s.dropWhile isBlank = s := by
  obtain ⟨c, r, rfl, hc⟩ := h.exists_cons
  exact List.dropWhile_cons_of_neg (by simp [hc])

theorem rdropWhile_block {body : Text} {cut : Cut} (hclose : throughClose body = some cut) :
    ('/' :: '*' :: cut.1).rdropWhile isBlank = '/' :: '*' :: cut.1 := by
  have hlast : (cut.after ['/', '*']).1.getLast? = some '/' :=
    getLast?_after (getLast?_throughClose hclose)
  exact (endsSolid_of_getLast? hlast (by decide)).rdropWhile_eq

theorem rdropWhile (h : IsComment s) : IsComment (s.rdropWhile isBlank) := by
  rcases h with hhead | ⟨r, rfl, hline⟩ | ⟨body, cut, hclose, rfl⟩
  · obtain ⟨r, rfl⟩ := List.head?_eq_some_iff.1 hhead
    rw [rdropWhile_cons_other (by decide)]
    exact .inl rfl
  · rw [rdropWhile_cons_other (by decide), rdropWhile_cons_other (by decide)]
    exact .inr (.inl ⟨_, rfl, fun hmem => hline ((List.rdropWhile_prefix _ r).subset hmem)⟩)
  · rw [rdropWhile_block hclose]
    exact .inr (.inr ⟨body, cut, hclose, rfl⟩)

/-- A comment that ends in front of a closing parenthesis is a block, so that it has no blanks to
lose, and ends anywhere. -/
theorem ends_of_paren (h : IsComment s) (hhash : (s.rdropWhile isBlank).head? ≠ some '#')
    (hruns : runsInto apart (s.rdropWhile isBlank) (')' :: after) = false) :
    s.rdropWhile isBlank = s ∧ ∀ t, runsInto apart s t = false := by
  rcases h with hhead | ⟨r, rfl, hline⟩ | ⟨body, cut, hclose, rfl⟩
  · obtain ⟨r, rfl⟩ := List.head?_eq_some_iff.1 hhead
    rw [rdropWhile_cons_other (by decide)] at hhash
    exact (hhash rfl).elim
  · have hline' : '\n' ∉ r.rdropWhile isBlank := fun hmem =>
      hline ((List.rdropWhile_prefix _ r).subset hmem)
    rw [rdropWhile_cons_other (by decide), rdropWhile_cons_other (by decide), runsInto,
      lexemes_line hline'] at hruns
    simp [Sqlite.Lexeme.extend?] at hruns
  · refine ⟨rdropWhile_block hclose, ?_⟩
    intro t
    rw [runsInto, lexemes_block hclose]
    cases t with
    | nil => rfl
    | cons c t => rfl

end Lexeme.IsComment

namespace Rows

variable {parts more : List Part} {p : Part} {before after : Text}

section Keeps

/-- SQLite finds the comment that a part is, and no other in it, just if it keeps the part. -/
theorem Part.Spelled.marksIn_iff (h : p.Spelled) :
    marksIn Sqlite.Lexeme.comment? before p.text after = atFirst p.comment? p.text ↔
      p.Keeps before after := by
  by_cases hrole : p.role = .comment
  · have hspelled := h hrole
    rw [Part.Keeps, if_pos hrole, Part.comment?, if_pos hrole]
    by_cases hhash : p.text.head? = some '#'
    · -- a hash is code, so no comment is found and none is kept
      obtain ⟨r, htext⟩ := List.head?_eq_some_iff.1 hhash
      have hnone : markAt Sqlite.Lexeme.comment? before '#' (r ++ after) = none :=
        markAt_comment_eq_none_iff.2 fun _ => rfl
      refine iff_of_false (fun heq => ?_) (fun hkeeps => hkeeps.1 hhash)
      rw [htext, marksIn, atFirst, hnone] at heq
      simp at heq
    · obtain ⟨shape, hshape, hwhole⟩ := hspelled.whole hhash
      rw [marksIn_comment_iff hwhole hshape, and_iff_right hhash]
  · rw [Part.Keeps, if_neg hrole, Part.comment?, if_neg hrole, atFirst_none, marksIn_eq_none_iff]
    simp only [markAt_comment_eq_none_iff, List.cons_append]

/-- Comments begin where they are meant to just if SQLite keeps each part. -/
theorem commentStarts_written_iff (hspelled : ∀ p ∈ parts, p.Spelled) :
    marks Sqlite.Lexeme.comment? (written parts) = commentStarts parts ↔
      Throughout Part.Keeps [] parts :=
  marks_written_iff (fun p _ => length_atFirst p.comment? p.text)
    fun p hp _ _ => (hspelled p hp).marksIn_iff

theorem filterMap_commentStarts (hspelled : ∀ p ∈ parts, p.Spelled) :
    (commentStarts parts).filterMap id = comments parts := by
  apply filterMap_flatMap_atFirst
  intro p hp hnil
  rw [Part.comment?, if_neg]
  intro hrole
  have hblank := (hspelled p hp hrole).not_blank
  rw [hnil] at hblank
  simp at hblank

/-- If SQLite keeps each part, its comments are those of the parts. -/
theorem comments_written (hspelled : ∀ p ∈ parts, p.Spelled)
    (hkeeps : Throughout Part.Keeps [] parts) :
    Sqlite.comments (written parts) = comments parts := by
  unfold Sqlite.comments
  rw [← filterMap_marks, (commentStarts_written_iff hspelled).2 hkeeps,
    filterMap_commentStarts hspelled]

end Keeps

section Spelled

theorem Part.Spelled.dropWhile (h : p.Spelled) :
    Part.Spelled { p with text := p.text.dropWhile isBlank } := by
  intro hrole
  change Restate.Lexeme.IsComment (p.text.dropWhile isBlank)
  rw [(h hrole).dropWhile_eq]
  exact h hrole

theorem Part.Spelled.rdropWhile (h : p.Spelled) :
    Part.Spelled { p with text := p.text.rdropWhile isBlank } :=
  fun hrole => (h hrole).rdropWhile

theorem Part.Spelled.not_comment (h : p.Spelled) (hblank : p.text.all isBlank = true) :
    p.role ≠ .comment := by
  intro hrole
  simp [(h hrole).not_blank] at hblank

/-- What a rule adds is code, and a replacement is nothing else. -/
theorem mem_parts {rule : FunctionRule} {args : List Part} (h : p ∈ rule.parts args) :
    p.role = .code ∨ rule.discards = false ∧ p ∈ args := by
  have haround : ∀ {head : Text}, p ∈ ⟨.code, head⟩ :: args ++ [⟨.code, ")"⟩] →
      p.role = .code ∨ p ∈ args := by
    intro head h
    rcases List.mem_append.1 h with h | h
    · rcases List.mem_cons.1 h with rfl | h
      · exact .inl rfl
      · exact .inr h
    · rw [List.mem_singleton.1 h]
      exact .inl rfl
  unfold FunctionRule.parts at h
  split at h
  · exact (haround h).imp_right fun hp => ⟨rfl, hp⟩
  · simp at h
  · rw [List.mem_singleton.1 h]
    exact .inl rfl
  · simp at h
  · exact (haround h).imp_right fun hp => ⟨rfl, hp⟩

theorem spelled_parts {args : List Part} (rule : FunctionRule) (h : ∀ p ∈ args, p.Spelled) :
    ∀ p ∈ rule.parts args, p.Spelled := by
  intro p hp hrole
  rcases mem_parts hp with hcode | ⟨-, hp⟩
  · simp [hrole] at hcode
  · exact h p hp hrole

theorem comment?_part (t : Token) : t.part.comment? = t.comment? := by
  by_cases hkind : t.kind = .comment
  · have hname : t.name? = none := name?_of_kind (by simp [hkind])
    simp [Part.comment?, Token.comment?, Token.part, plainPiece, hname, hkind]
  · rw [Part.comment?, Token.comment?, if_neg hkind, if_neg]
    unfold Token.part
    split
    · simp
    · simp

theorem spelled_part {tokens : List Token}
    (h : ∀ s ∈ tokens.filterMap Token.comment?, Restate.Lexeme.IsComment s) :
    ∀ t ∈ tokens, t.part.Spelled := by
  intro t ht hrole
  apply h
  refine List.mem_filterMap.2 ⟨t, ht, ?_⟩
  rw [← comment?_part, Part.comment?, if_pos hrole]

theorem spelled_assemble {functions : Fields FunctionRule} {previous : Option Token}
    {tokens : List Token} (h : ∀ t ∈ tokens, t.part.Spelled) :
    ∀ p ∈ assemble Token.part (fun rule args => rule.parts (trim args)) functions previous tokens,
      p.Spelled :=
  forall_mem_assemble (fun _ => Part.Spelled.dropWhile) (fun _ => Part.Spelled.rdropWhile)
    (fun _ rule _ _ => spelled_parts rule) h

end Spelled

section Ends

theorem endBefore_append :
    EndBefore after (parts ++ more) ↔
      EndBefore (written more ++ after) parts ∧ EndBefore after more := by
  induction parts with
  | nil => simp [EndBefore, Along]
  | cons p parts ih =>
      have hcons : ∀ {after parts}, EndBefore after (p :: parts) ↔
          p.Ends (written parts ++ after) ∧ EndBefore after parts := Iff.rfl
      rw [List.cons_append, hcons, hcons, ih, written_append, List.append_assoc, and_assoc]

theorem endBefore_of_keeps (h : Throughout Part.Keeps before parts) : EndBefore [] parts := by
  induction parts generalizing before with
  | nil => trivial
  | cons p parts ih =>
      refine ⟨?_, ih h.2⟩
      intro hrole
      have hkeeps := h.1
      rw [Part.Keeps, if_pos hrole] at hkeeps
      rw [List.append_nil]
      exact ⟨hkeeps.1, hkeeps.2.2⟩

theorem endBefore_of_not_comment (h : ∀ p ∈ parts, p.role ≠ .comment) : EndBefore after parts := by
  induction parts with
  | nil => trivial
  | cons p parts ih =>
      obtain ⟨hp, hparts⟩ := List.forall_mem_cons.1 h
      exact ⟨fun hrole => (hp hrole).elim, ih hparts⟩

theorem comments_eq_nil (h : ∀ p ∈ parts, p.role ≠ .comment) : comments parts = [] := by
  apply List.filterMap_eq_nil_iff.2
  intro p hp
  rw [Part.comment?, if_neg (h p hp)]

theorem comments_cons (p : Part) (parts : List Part) :
    comments (p :: parts) = p.comment?.toList ++ comments parts :=
  filterMap_cons_toList _ _ _

theorem Part.comment?_of_kept {text : Text} (h : p.role = .comment → text = p.text) :
    Part.comment? { p with text := text } = p.comment? := by
  unfold Part.comment?
  split
  · next hrole => rw [h hrole]
  · rfl

theorem endBefore_trimStart (hspelled : ∀ p ∈ parts, p.Spelled)
    (h : EndBefore after (trimStart parts)) :
    EndBefore after parts ∧ comments (trimStart parts) = comments parts := by
  induction parts with
  | nil => exact ⟨h, rfl⟩
  | cons p parts ih =>
      obtain ⟨hp, hparts⟩ := List.forall_mem_cons.1 hspelled
      rw [trimStart] at h ⊢
      split at h
      · next hblank =>
          have hrole := hp.not_comment hblank
          obtain ⟨hends, hcomments⟩ := ih hparts h
          refine ⟨⟨fun h => (hrole h).elim, hends⟩, ?_⟩
          rw [if_pos hblank, hcomments, comments_cons, Part.comment?, if_neg hrole]
          rfl
      · next hblank =>
          have hkept : p.role = .comment → p.text.dropWhile isBlank = p.text :=
            fun hrole => (hp hrole).dropWhile_eq
          rw [if_neg hblank, comments_cons, comments_cons, Part.comment?_of_kept hkept]
          refine ⟨⟨?_, h.2⟩, rfl⟩
          intro hrole
          have hfirst := h.1 hrole
          rwa [hkept hrole] at hfirst

/-- A comment that ends in front of the closing parenthesis of a call loses nothing when the
arguments are trimmed. -/
theorem endBefore_trimEnd (hspelled : ∀ p ∈ parts, p.Spelled)
    (h : EndBefore (')' :: after) (trimEnd parts)) :
    EndBefore (')' :: after) parts ∧ comments (trimEnd parts) = comments parts := by
  induction parts with
  | nil => exact ⟨h, rfl⟩
  | cons p parts ih =>
      obtain ⟨hp, hparts⟩ := List.forall_mem_cons.1 hspelled
      rw [trimEnd] at h ⊢
      split at h
      · next hblank =>
          have hrest : ∀ q ∈ parts, q.role ≠ .comment := fun q hq =>
            (hparts q hq).not_comment (all_isBlank_of_mem hblank hq)
          have hkept : p.role = .comment →
              p.text.rdropWhile isBlank = p.text ∧ ∀ t, runsInto apart p.text t = false := by
            intro hrole
            obtain ⟨hhash, hruns⟩ := h.1 hrole
            exact (hp hrole).ends_of_paren hhash hruns
          rw [if_pos hblank, comments_cons, comments_cons, comments_eq_nil hrest,
            Part.comment?_of_kept fun hrole => (hkept hrole).1]
          refine ⟨⟨?_, endBefore_of_not_comment hrest⟩, rfl⟩
          intro hrole
          obtain ⟨htext, hruns⟩ := hkept hrole
          have hfirst := (h.1 hrole).1
          rw [htext] at hfirst
          exact ⟨hfirst, hruns _⟩
      · next hblank =>
          obtain ⟨hends, hcomments⟩ := ih hparts h.2
          rw [if_neg hblank, comments_cons, comments_cons, hcomments]
          refine ⟨⟨?_, hends⟩, rfl⟩
          intro hrole
          obtain ⟨hhash, hruns⟩ := h.1 hrole
          refine ⟨hhash, ?_⟩
          -- what is written behind the comment begins as before, since it is not blank
          have hne : (written parts).rdropWhile isBlank ≠ [] := by
            simpa [List.rdropWhile_eq_nil_iff] using hblank
          obtain ⟨blanks, hsplit⟩ := List.rdropWhile_prefix isBlank (l := written parts)
          rw [written_trimEnd, runsInto_append hne] at hruns
          rwa [← hsplit, List.append_assoc, runsInto_append hne]

theorem endBefore_trim (hspelled : ∀ p ∈ parts, p.Spelled)
    (h : EndBefore (')' :: after) (trim parts)) :
    EndBefore (')' :: after) parts ∧ comments (trim parts) = comments parts := by
  have hspelled' := forall_mem_trimStart (fun _ => Part.Spelled.dropWhile) hspelled
  obtain ⟨hstart, htrimEnd⟩ := endBefore_trimEnd hspelled' h
  obtain ⟨hends, htrimStart⟩ := endBefore_trimStart hspelled hstart
  exact ⟨hends, htrimEnd.trans htrimStart⟩

/-- The comments of a call are those of its arguments, if they end in it. -/
theorem endBefore_parts {rule : FunctionRule} {text : Text} {piece : Piece}
    (happly : rule.apply text = .ok piece) (hspelled : ∀ p ∈ parts, p.Spelled)
    (h : EndBefore after (rule.parts (trim parts))) :
    (rule.discards = false → EndBefore (')' :: after) parts) ∧
      comments (rule.parts (trim parts)) = if rule.discards then [] else comments parts := by
  have haround : ∀ {head : Text},
      EndBefore after (⟨.code, head⟩ :: trim parts ++ [⟨.code, ")"⟩]) →
        EndBefore (')' :: after) parts ∧
          comments (⟨.code, head⟩ :: trim parts ++ [⟨.code, ")"⟩]) = comments parts := by
    intro head h
    obtain ⟨⟨-, hargs⟩, -⟩ := endBefore_append.1 h
    obtain ⟨hends, hcomments⟩ := endBefore_trim hspelled hargs
    refine ⟨hends, ?_⟩
    rw [← hcomments]
    simp [comments, Part.comment?]
  cases hdiscards : rule.discards with
  | true =>
      -- a replacement is code, whatever the arguments were
      refine ⟨by simp, ?_⟩
      rw [if_pos rfl]
      apply comments_eq_nil
      intro p hp
      rcases mem_parts hp with hcode | ⟨hkept, -⟩
      · simp [hcode]
      · simp [hdiscards] at hkept
  | false =>
      unfold FunctionRule.apply at happly
      split at happly
      · exact ⟨fun _ => (haround h).1, (haround h).2⟩
      · simp at happly
      · simp [FunctionRule.discards] at hdiscards
      · simp [FunctionRule.discards] at hdiscards
      · exact ⟨fun _ => (haround h).1, (haround h).2⟩

theorem comments_assemble {functions : Fields FunctionRule} {previous : Option Token}
    {tokens : List Token} {pieces : List Piece}
    (h : restatePieces functions previous tokens = .ok pieces)
    (hspelled : ∀ t ∈ tokens, t.part.Spelled)
    (hends : EndBefore after (assemble Token.part (fun rule args => rule.parts (trim args))
      functions previous tokens)) :
    comments (assemble Token.part (fun rule args => rule.parts (trim args)) functions previous
        tokens) =
      (assemble id (fun rule args => if rule.discards then [] else args) functions previous
        tokens).filterMap Token.comment? := by
  -- the induction is on what the rewriting makes, since it tells that each rule can be applied
  fun_induction restatePieces functions previous tokens generalizing pieces after with
  | case1 =>
      rw [assemble_nil, assemble_nil]
      rfl
  | case2 previous t rest hcall ih =>
      obtain ⟨more, hmore, -⟩ := except_bind_ok.1 h
      have hspelled := (List.forall_mem_cons.1 hspelled).2
      simp only [dite_eq_ite] at ih hmore
      rw [assemble_token hcall] at hends ⊢
      rw [assemble_token hcall, comments_cons, filterMap_cons_toList, comment?_part,
        ih hmore hspelled hends.2]
      rfl
  | case3 => simp at h
  | case4 previous t rest rule body hcall n hclose ihargs ihmore =>
      obtain ⟨args, hargs, h⟩ := except_bind_ok.1 h
      obtain ⟨argsText, -, h⟩ := except_bind_ok.1 h
      obtain ⟨piece, happly, h⟩ := except_bind_ok.1 h
      obtain ⟨more, hmore, -⟩ := except_bind_ok.1 h
      obtain ⟨-, hsuffix⟩ := call?_some hcall
      have hbody : ∀ u ∈ body, u.part.Spelled := fun u hu =>
        hspelled u (List.mem_cons_of_mem _ (hsuffix.subset hu))
      have htake : ∀ u ∈ body.take n, u.part.Spelled := fun u hu =>
        hbody u (List.mem_of_mem_take hu)
      rw [assemble_call hcall hclose] at hends ⊢
      obtain ⟨hcallEnds, hmoreEnds⟩ := endBefore_append.1 hends
      obtain ⟨hargsEnd, hcomments⟩ :=
        endBefore_parts happly (spelled_assemble htake) hcallEnds
      have hmore := ihmore hmore (fun u hu => hbody u (List.mem_of_mem_drop hu)) hmoreEnds
      rw [assemble_call hcall hclose, List.filterMap_append, ← hmore]
      unfold comments at hcomments ⊢
      rw [List.filterMap_append, hcomments]
      cases hdiscards : rule.discards with
      | true => rfl
      | false =>
          have hargs := ihargs hargs htake (hargsEnd hdiscards)
          unfold comments at hargs
          rw [if_neg (by simp), if_neg (by simp), hargs]

/-- If its comments end, the text of a statement has those of the tokens that are left. -/
theorem comments_partsOf {functions : Fields FunctionRule} {tokens : List Token} {text : Text}
    (h : restateTokens functions tokens = .ok text) (hspelled : ∀ t ∈ tokens, t.part.Spelled)
    (hends : EndBefore after (partsOf functions tokens)) :
    comments (partsOf functions tokens) =
      (remaining functions tokens).filterMap Token.comment? := by
  obtain ⟨pieces, hpieces, -⟩ := except_bind_ok.1 h
  exact comments_assemble hpieces hspelled hends

end Ends

/-- The tokens that are left are tokens of the statement in order. -/
theorem sublist_assemble {functions : Fields FunctionRule} {previous : Option Token}
    (tokens : List Token) :
    (assemble id (fun rule args => if rule.discards then [] else args) functions previous
      tokens).Sublist tokens := by
  fun_induction assemble id (fun rule args => if rule.discards then [] else args) functions previous
      tokens with
  | case1 => exact .slnil
  | case2 previous t rest hcall ih => exact ih.cons_cons t
  | case3 => exact List.nil_sublist _
  | case4 previous t rest rule body hcall n hclose ihargs ihmore =>
      obtain ⟨-, hsuffix⟩ := call?_some hcall
      have hargs : (if rule.discards then [] else assemble id
          (fun rule args => if rule.discards then [] else args) functions none
            (body.take n)).Sublist (body.take n) := by
        split
        · exact List.nil_sublist _
        · exact ihargs
      have hbody : (body.take n ++ body.drop (n + 1)).Sublist body := by
        rw [← List.eraseIdx_eq_take_drop_succ]
        exact List.eraseIdx_sublist body n
      exact ((hargs.append ihmore).trans hbody).trans (hsuffix.sublist.cons t)

end Rows

namespace Parameter.Binds

open Rows

variable {naming : Naming} {p : Option Token} {ts : List Token} {n : Nat} {bound : Bound}

/-- Binding leaves the comments as they are. -/
theorem comments (h : Binds naming n p ts bound) :
    bound.tokens.filterMap Token.comment? = ts.filterMap Token.comment? := by
  -- neither a literal nor a word that touches it is a comment, nor what takes their place
  induction h with
  | nil => rfl
  | keep _ _ ih =>
      rw [filterMap_cons_toList, ← ih]
      exact filterMap_cons_toList _ _ _
  | literal hstring _ _ ih =>
      rw [filterMap_cons_toList, comment?_of_kind (by simp [hstring]), ← ih]
      rfl
  | charset _ hbefore _ ih =>
      have hu := Introducer.kind_of_before hbefore
      have ht := Introducer.bare_of_before hbefore
      rw [filterMap_cons_toList, filterMap_cons_toList, comment?_of_bare ht,
        comment?_of_kind (by simp [hu]), ← ih]
      rfl
  | @bytes n p t u ts bound _ hbefore _ ih =>
      have hu := Introducer.kind_of_before hbefore
      have ht := Introducer.bare_of_before hbefore
      have hmarker : Token.comment? { t with text := ['X'] } = none := comment?_of_bare ht
      have hbytes : Token.comment? { u with text := quoteString u.value } = none :=
        comment?_of_kind (by simp [hu])
      rw [filterMap_cons_toList, filterMap_cons_toList, comment?_of_bare ht,
        comment?_of_kind (by simp [hu]), ← ih]
      simp [Bound.after, byteLiteral, hmarker, hbytes]
  | bits _ hbefore _ _ ih =>
      have hu := Introducer.kind_of_before hbefore
      have ht := Introducer.bare_of_before hbefore
      rw [filterMap_cons_toList, filterMap_cons_toList, comment?_of_bare ht,
        comment?_of_kind (by simp [hu]), ← ih]
      rfl

end Parameter.Binds

namespace Rows

theorem comments_orIgnore (kind : StatementKind) (tokens : List Token) :
    (orIgnore kind tokens).filterMap Token.comment? = tokens.filterMap Token.comment? := by
  rcases orIgnore_cases kind tokens with heq | ⟨before, t, after, hbare, htokens, heq⟩
  · rw [heq]
  · have hword : Token.comment? { t with text := "OR IGNORE" } = none := comment?_of_bare hbare
    rw [heq, htokens, List.filterMap_append, List.filterMap_append, filterMap_cons_toList,
      filterMap_cons_toList, hword, comment?_of_bare hbare]

/-- The comments that are read are spelled as comments. -/
theorem isComment_of_read {tokens : List Token} (hread : ∀ t ∈ tokens, t.IsRead) :
    ∀ s ∈ tokens.filterMap Token.comment?, Restate.Lexeme.IsComment s := by
  intro s hs
  obtain ⟨t, ht, hcomment⟩ := List.mem_filterMap.1 hs
  unfold Token.comment? at hcomment
  split at hcomment
  · next hkind =>
      cases hcomment
      exact (hread t ht).comment hkind
  · simp at hcomment

end Rows

/-- A statement on rows becomes one query, whose text is that of its parts. Neither binding nor
rewriting changes a comment, and those of the tokens that are left stay in order. SQLite reads the
comments of the text where they are meant to begin, and no others, just if it keeps each part. Then
its comments are those of the statement that are left. -/
theorem restate_comments_iff {settings : Settings} {tablePrefix sql : Text} {r : Restatement}
    {kind : StatementKind} (hrestate : (restate settings tablePrefix sql).outcome = .ok r)
    (hkind : r.kind = some kind) (hrow : kind ∈ StatementKind.onRows) :
    ∃ tokens bound parts, tokenize sql = .ok tokens ∧
      Parameter.extract settings.placeholderStem.inserted tokens = .ok bound ∧
      parts = Rows.partsOf settings.functions (orIgnore kind bound.tokens) ∧
      r.queries = [⟨.sql (Rows.written parts), bound.params⟩] ∧
      (orIgnore kind bound.tokens).filterMap Token.comment? = tokens.filterMap Token.comment? ∧
      (Rows.remaining settings.functions (orIgnore kind bound.tokens)).Sublist
        (orIgnore kind bound.tokens) ∧
      (Sqlite.marks Sqlite.Lexeme.comment? (Rows.written parts) = Rows.commentStarts parts ↔
        Rows.Throughout Rows.Part.Keeps [] parts) ∧
      (Rows.Throughout Rows.Part.Keeps [] parts →
        Sqlite.comments (Rows.written parts) =
          (Rows.remaining settings.functions (orIgnore kind bound.tokens)).filterMap
            Token.comment?) := by
  obtain ⟨tokens, bound, text, htokens, hbound, htext, hqueries⟩ :=
    restate_rows_ok hrestate hkind hrow
  obtain ⟨-, -, hread⟩ := tiles_of_tokenize htokens
  have hcomments : (orIgnore kind bound.tokens).filterMap Token.comment? =
      tokens.filterMap Token.comment? := by
    rw [Rows.comments_orIgnore, (Parameter.binds_of_extract hbound).comments]
  have htokensSpelled : ∀ t ∈ orIgnore kind bound.tokens, t.part.Spelled :=
    Rows.spelled_part (hcomments ▸ Rows.isComment_of_read hread)
  have hspelled : ∀ p ∈ Rows.partsOf settings.functions (orIgnore kind bound.tokens), p.Spelled :=
    Rows.spelled_assemble htokensSpelled
  refine ⟨tokens, bound, _, htokens, hbound, rfl, ?_, hcomments, Rows.sublist_assemble _,
    Rows.commentStarts_written_iff hspelled, ?_⟩
  · rw [hqueries, Rows.written_partsOf htext]
  · intro hkeeps
    rw [Rows.comments_written hspelled hkeeps]
    exact Rows.comments_partsOf htext htokensSpelled (Rows.endBefore_of_keeps hkeeps)

/-- A block in a call and a line at the end are kept, and what a literal holds is no comment. -/
theorem restate_comments_of_call :
    ∃ settings r tokens bound parts, Settings.load .builtIn = .ok settings ∧
      (restate settings [] "SELECT YEAR(a /* b */), '--' FROM t -- c").outcome = .ok r ∧
      r.kind = some .select ∧ tokenize "SELECT YEAR(a /* b */), '--' FROM t -- c" = .ok tokens ∧
      Parameter.extract settings.placeholderStem.inserted tokens = .ok bound ∧
      r.queries = [⟨.sql (Rows.written parts), bound.params⟩] ∧
      Rows.Throughout Rows.Part.Keeps [] parts ∧
      Sqlite.comments (Rows.written parts) = ["/* b */".toList, "-- c".toList] := by
  obtain ⟨settings, hload, h⟩ := exists_of_passes (show passes (fun settings =>
      passes (fun r => r.kind == some .select)
          (restate settings [] "SELECT YEAR(a /* b */), '--' FROM t -- c").outcome
        && passes (fun tokens => passes (fun bound => decide
          (Sqlite.marks Sqlite.Lexeme.comment? (Rows.written
              (Rows.partsOf settings.functions (orIgnore .select bound.tokens))) =
            Rows.commentStarts
              (Rows.partsOf settings.functions (orIgnore .select bound.tokens)) ∧
            (Rows.remaining settings.functions (orIgnore .select bound.tokens)).filterMap
              Token.comment? = ["/* b */".toList, "-- c".toList]))
          (Parameter.extract settings.placeholderStem.inserted tokens))
          (tokenize "SELECT YEAR(a /* b */), '--' FROM t -- c"))
      (Settings.load .builtIn) = true by decide +kernel)
  obtain ⟨hrestate, h⟩ := Bool.and_eq_true_iff.1 h
  obtain ⟨r, hrestate, hkind⟩ := exists_of_passes hrestate
  have hkind := eq_of_beq hkind
  obtain ⟨tokens, bound, parts, htokens, hbound, hparts, hqueries, -, -, hiff, hcomments⟩ :=
    restate_comments_iff hrestate hkind (by decide)
  rw [htokens, passes, hbound, passes, ← hparts, decide_eq_true_iff] at h
  have hkeeps := hiff.1 h.1
  exact ⟨settings, r, tokens, bound, parts, hload, hrestate, hkind, htokens, hbound, hqueries,
    hkeeps, (hcomments hkeeps).trans h.2⟩

/-- Two minus signs with no blank behind them are code in the statement, and a comment for SQLite
that hides the rest. -/
theorem restate_comment_of_signs :
    ∃ settings r tokens query, Settings.load .builtIn = .ok settings ∧
      (restate settings [] "SELECT a--1 FROM t WHERE b = 2").outcome = .ok r ∧
      r.kind = some .select ∧ r.queries = [query] ∧
      tokenize "SELECT a--1 FROM t WHERE b = 2" = .ok tokens ∧
      tokens.filterMap Token.comment? = [] ∧
      Sqlite.comments query.command.text = ["--1 FROM t WHERE b = 2".toList] := by
  obtain ⟨settings, hload, h⟩ := exists_of_passes (show passes (fun settings =>
      passes (fun r => decide (r.kind = some .select ∧ r.queries.length = 1 ∧
        ∀ query ∈ r.queries,
          Sqlite.comments query.command.text = ["--1 FROM t WHERE b = 2".toList]))
        (restate settings [] "SELECT a--1 FROM t WHERE b = 2").outcome)
      (Settings.load .builtIn) = true by decide +kernel)
  obtain ⟨r, hrestate, h⟩ := exists_of_passes h
  obtain ⟨hkind, hlength, hquery⟩ := of_decide_eq_true h
  obtain ⟨query, hqueries⟩ := List.length_eq_one_iff.1 hlength
  obtain ⟨tokens, htokens, hnone⟩ := exists_of_passes (show passes (fun tokens =>
      decide (tokens.filterMap Token.comment? = [])) (tokenize "SELECT a--1 FROM t WHERE b = 2") =
    true by decide +kernel)
  exact ⟨settings, r, tokens, query, hload, hrestate, hkind, hqueries, htokens,
    of_decide_eq_true hnone, hquery query (by simp [hqueries])⟩

end Restate
