import Restate.Proofs.Sqlite.Words

/-!
# How texts end

What a text runs into depends on its last lexeme. Where what stood behind it in its own source could
not belong to it, a lexeme goes on behind itself only with the hyphen or quote that it ends in
(`Ends.extend?_iff`), and never with a blank.
-/

namespace Restate.Sqlite

open Text

/-- A text whose characters are those of words, of numbers or of variables, with at most one hyphen:
no quoted span and no comment begins in it. -/
structure IsPlain (s : Text) : Prop where
  chars : ∀ c ∈ s, Restate.Lexeme.isVariableChar c = true ∨ c ∈ ['+', '-', '@']
  hyphens : s.count '-' ≤ 1

/-- A lexeme that is complete before what stands behind it in its own source. -/
inductive Ends (next : Text) : Lexeme → Prop where
  | word {s : Text} : s ≠ [] → s.all isNameChar = true → beginsWithWord next = false →
      Ends next (.word s)
  | alone {c : Char} : standsAlone c = true → Ends next (.ofMark c)
  | sign {sign : Text} : sign ∈ Restate.Lexeme.operators →
      (∀ c ∈ next.head?, sign ++ [c] ∉ Restate.Lexeme.operators) →
      (sign = ['/'] → next.head? ≠ some '*') → Ends next ⟨.code, sign⟩
  | closed {quote : Char} {s : Text} : Shape.ofFirst quote = .quoted quote →
      s.getLast? = some quote → Ends next ⟨.closed quote, s⟩

/-- What may go on behind itself where the ends of two texts meet: the hyphen and the quotes that
SQLite puts around literals and names. -/
def seams : List Char :=
  ['-', '\x27', '"']

variable {c : Char} {s next : Text} {l : Lexeme}

namespace IsPlain

theorem left {p q : Text} (h : IsPlain (p ++ q)) : IsPlain p := by
  refine ⟨fun c hc => h.chars c (List.mem_append_left _ hc), ?_⟩
  have := h.hyphens
  rw [List.count_append] at this
  omega

theorem right {p q : Text} (h : IsPlain (p ++ q)) : IsPlain q := by
  refine ⟨fun c hc => h.chars c (List.mem_append_right _ hc), ?_⟩
  have := h.hyphens
  rw [List.count_append] at this
  omega

theorem ofFirst_eq (h : IsPlain s) (hc : c ∈ s) : Shape.ofFirst c = .code ∧ c ≠ '/' := by
  have hother : c ≠ '\x27' ∧ c ≠ '"' ∧ c ≠ backtick ∧ c ≠ '/' := by
    have hclass := h.chars c hc
    refine ⟨?_, ?_, ?_, ?_⟩ <;> rintro rfl <;> revert hclass <;> decide
  simp [Shape.ofFirst, hother]

theorem count_hyphen (h : ∀ c ∈ s, Restate.Lexeme.isVariableChar c = true ∨ c = '@') :
    s.count '-' = 0 := by
  refine List.count_eq_zero.2 fun hmem => ?_
  have hclass := h '-' hmem
  revert hclass
  decide

theorem of_forall (h : ∀ c ∈ s, Restate.Lexeme.isVariableChar c = true ∨ c = '@') : IsPlain s where
  chars c hc := (h c hc).imp_right (by simp +contextual)
  hyphens := by simp [count_hyphen h]

theorem append {p : Text} (hp : ∀ c ∈ p, Restate.Lexeme.isVariableChar c = true ∨ c = '@')
    (hs : IsPlain s) : IsPlain (p ++ s) where
  chars c hc := (List.mem_append.1 hc).elim ((of_forall hp).chars c) (hs.chars c)
  hyphens := by simpa [List.count_append, count_hyphen hp] using hs.hyphens

/-- Behind code such a text is read as code. -/
theorem code_from (hl : l.shape = .code) (h : IsPlain (l.text ++ s)) :
    ∀ m ∈ lexemesFrom together l s, m.shape = .code := by
  induction s generalizing l with
  | nil => simpa [lexemesFrom] using hl
  | cons c s ih =>
      obtain ⟨shape, text⟩ := l
      obtain rfl : shape = .code := hl
      have hline : ¬ (text = ['-'] ∧ c = '-') := by
        rintro ⟨rfl, rfl⟩
        have := h.hyphens
        simp at this
      have hblock : ¬ (text = ['/'] ∧ c = '*') := by
        rintro ⟨rfl, -⟩
        exact (h.ofFirst_eq (c := '/') (by simp)).2 rfl
      have hext : Lexeme.extend? together ⟨.code, text⟩ c =
          if together.joins text c then some .code else none := by
        simp [Lexeme.extend?, hline, hblock, show together.placeholders = false from rfl]
      rw [lexemesFrom, hext]
      cases together.joins text c with
      | true => exact ih rfl (by simpa using h)
      | false =>
          have hfirst := (h.ofFirst_eq (c := c) (by simp)).1
          exact List.forall_mem_cons.2 ⟨rfl, ih hfirst h.right⟩

theorem code (h : IsPlain s) : ∀ l ∈ lexemes together s, l.shape = .code := by
  cases s with
  | nil => simp [lexemes]
  | cons c s => exact code_from (h.ofFirst_eq List.mem_cons_self).1 h

theorem endsInside (h : IsPlain s) : endsInside s = false := by
  rw [Sqlite.endsInside]
  cases hlast : (lexemes together s).getLast? with
  | none => rfl
  | some l => simp [h.code l (List.mem_of_getLast? hlast), Shape.isOpen]

/-- A text that ends in a word or in a point is complete where no word goes on. -/
theorem ends (h : IsPlain s) (hlast : s.getLast? = some c)
    (hc : Restate.Lexeme.isVariableChar c = true) (hnext : beginsWithWord next = false) :
    ∃ l, (lexemes together s).getLast? = some l ∧ Ends next l := by
  have hclass : isNameChar c = true ∨ c = '.' := by
    simpa [Restate.Lexeme.isVariableChar] using hc
  rcases hclass with hc | rfl
  · obtain rfl | ⟨l, hl, hregular⟩ := getLast?_lexemes s
    · cases hlast
    · have hword := endsInWord_eq hl
      obtain ⟨shape, text⟩ := l
      obtain rfl : shape = .code := h.code _ (List.mem_of_getLast? hl)
      obtain ⟨hne, hsame⟩ := hregular
      have hall : ∀ d ∈ text, ∀ e ∈ text, isNameChar d = isNameChar e := hsame
      have htext : text.all isNameChar = true := by
        rw [endsInWord, hlast, Option.any_some, hc] at hword
        obtain ⟨e, he, hname⟩ := (Option.any_eq_true _ _).1 hword.symm
        refine List.all_eq_true.2 fun d hd => ?_
        rw [hall d hd e (List.mem_of_getLast? he), hname]
      exact ⟨_, hl, .word hne htext hnext⟩
  · obtain ⟨front, rfl⟩ := List.getLast?_eq_some_iff.1 hlast
    have hpoint : standsAlone '.' = true := by decide
    refine ⟨.ofMark '.', ?_, .alone hpoint⟩
    rw [(lexemes_alone_iff (s := []) hpoint).2 h.left.endsInside]
    simp [lexemes]

end IsPlain

/-- What goes on behind a word is a character of a word. -/
theorem extend?_word_iff (hne : s ≠ []) (hs : s.all isNameChar = true) :
    (Lexeme.word s).extend? together c = none ↔ isNameChar c = false := by
  have hlast : (lexemes together s).getLast? = some (.word s) := by
    rw [lexemes_word hne hs]
    rfl
  rw [← runsInto_cons_iff (s := []) hlast, runsInto_of_word hne hs]
  rfl

theorem operator_chars {sign : Text} (h : sign ∈ Restate.Lexeme.operators) :
    ∀ d ∈ sign, isNameChar d = false ∧ isBlank d = false ∧ Shape.ofFirst d = .code := by
  have hall : Restate.Lexeme.operators.all (·.all fun d =>
      !isNameChar d && !isBlank d && Shape.ofFirst d == .code) = true := by
    decide +kernel
  simpa [and_assoc] using List.all_eq_true.1 hall sign h

/-- An operator goes on as a longer one, or as a comment. -/
theorem extend?_sign_iff {sign : Text} (h : sign ∈ Restate.Lexeme.operators) :
    Lexeme.extend? together ⟨.code, sign⟩ c = none ↔
      ¬ (sign = ['-'] ∧ c = '-') ∧ ¬ (sign = ['/'] ∧ c = '*') ∧
        sign ++ [c] ∉ Restate.Lexeme.operators := by
  have hjoins : together.joins sign c = Restate.Lexeme.operators.contains (sign ++ [c]) := by
    obtain ⟨first, rest, rfl⟩ :=
      List.exists_cons_of_ne_nil (Restate.Lexeme.ne_nil_of_mem_operators h)
    obtain ⟨hname, hblank, -⟩ := operator_chars h first List.mem_cons_self
    simp [together, hname, hblank]
  by_cases hline : sign = ['-'] ∧ c = '-'
  · simp [Lexeme.extend?, hline]
  by_cases hblock : sign = ['/'] ∧ c = '*'
  · simp [Lexeme.extend?, hblock]
  simp [Lexeme.extend?, hline, hblock, hjoins, show together.placeholders = false from rfl]

theorem not_operator_quote {sign : Text} (h : c = '\x27' ∨ c = '"') :
    sign ++ [c] ∉ Restate.Lexeme.operators := by
  intro hmem
  have := (operator_chars hmem c (by simp)).2.2
  rcases h with rfl | rfl
  · revert this
    decide
  · revert this
    decide

/-- Of the seams only the hyphen ends an operator, and it is one by itself. -/
theorem operator_of_seam {sign : Text} (h : sign ∈ Restate.Lexeme.operators) (hc : c ∈ seams)
    (hlast : sign.getLast? = some c) : sign = ['-'] ∧ c = '-' := by
  have hall : Restate.Lexeme.operators.all (fun sign => seams.all fun c =>
      sign.getLast? ≠ some c ∨ sign = ['-'] ∧ c = '-') = true := by
    decide +kernel
  have hseam := of_decide_eq_true (List.all_eq_true.1 (List.all_eq_true.1 hall sign h) c hc)
  exact hseam.resolve_left (not_not_intro hlast)

theorem mem_seams_of_quote {quote : Char} (h : Shape.ofFirst quote = .quoted quote)
    (htick : quote ≠ backtick) : quote ∈ seams := by
  unfold Shape.ofFirst at h
  split at h
  · next hdelimiter =>
      rcases hdelimiter with rfl | rfl | rfl
      · decide
      · decide
      · exact (htick rfl).elim
  · cases h

namespace Ends

/-- A blank belongs to no lexeme that is complete. -/
theorem extend?_space (h : Ends next l) : l.extend? together ' ' = none := by
  cases h with
  | word hne hword _ => exact (extend?_word_iff hne hword).2 (by decide)
  | alone hc => exact Lexeme.extend?_ofMark hc ' '
  | @sign sign hsign _ _ =>
      refine (extend?_sign_iff hsign).2 ⟨by simp, by simp, fun hmem => ?_⟩
      have := (operator_chars hmem ' ' (by simp)).2.1
      revert this
      decide
  | @closed quote s hquote hlast =>
      have hne : ' ' ≠ quote := by
        rintro rfl
        revert hquote
        decide
      simp [Lexeme.extend?, hne]

/-- A complete lexeme goes on with the seam that it ends in only. -/
theorem extend?_iff (h : Ends next l) (hc : next.head? = some c ∨ c = '\x27' ∨ c = '"')
    (htick : c ≠ backtick) :
    l.extend? together c = none ↔ ¬ (c ∈ seams ∧ l.text.getLast? = some c) := by
  cases h with
  | @word s hne hword hnext =>
      have hname : isNameChar c = false := by
        rcases hc with hc | rfl | rfl
        · rwa [beginsWithWord, hc] at hnext
        · decide
        · decide
      refine iff_of_true ((extend?_word_iff hne hword).2 hname) ?_
      rintro ⟨-, hlast⟩
      have := List.all_eq_true.1 hword c (List.mem_of_getLast? hlast)
      simp [hname] at this
  | @alone d hd =>
      refine iff_of_true (Lexeme.extend?_ofMark hd c) ?_
      rintro ⟨hseam, hlast⟩
      obtain rfl : d = c := by simpa [Lexeme.ofMark] using hlast
      have hall : seams.all (!standsAlone ·) = true := by decide
      have := List.all_eq_true.1 hall d hseam
      simp [hd] at this
  | @sign sign hsign hlonger hblock =>
      have hmem : sign ++ [c] ∉ Restate.Lexeme.operators := by
        rcases hc with hc | hc
        · exact hlonger c hc
        · exact not_operator_quote hc
      have hclose : ¬ (sign = ['/'] ∧ c = '*') := by
        rintro ⟨rfl, rfl⟩
        rcases hc with hc | hc | hc
        · exact hblock rfl hc
        · revert hc
          decide
        · revert hc
          decide
      rw [extend?_sign_iff hsign]
      constructor
      · rintro ⟨hline, -⟩ ⟨hc, hlast⟩
        exact hline (operator_of_seam hsign hc hlast)
      · intro hnot
        refine ⟨?_, hclose, hmem⟩
        rintro ⟨rfl, rfl⟩
        exact hnot ⟨by decide, rfl⟩
  | @closed quote s hquote hlast =>
      by_cases heq : c = quote
      · subst heq
        refine iff_of_false ?_ (not_not.2 ⟨mem_seams_of_quote hquote htick, hlast⟩)
        simp [Lexeme.extend?, show together.doubling = true from rfl]
      · refine iff_of_true (by simp [Lexeme.extend?, heq]) ?_
        rintro ⟨-, hend⟩
        exact heq (Option.some.inj (hend.symm.trans hlast))

end Ends

end Restate.Sqlite
