import Mathlib.Data.List.DropRight
import Restate.Proofs.Sqlite.Reading

/-!
# Placeholders as SQLite reads them

A placeholder is a colon with the longest run of word characters behind it, outside quoted spans and
comments. A text without placeholders is silent; it stays silent when blanks are taken from its
ends, and texts that do not run into each other hold the placeholders of both.
-/

namespace Restate.Sqlite

open Text

/-- The name in a placeholder. -/
def Lexeme.name? (l : Lexeme) : Option Text :=
  match l.shape with
  | .placeholder => some l.text.tail
  | _ => none

/-- The names of the placeholders in a text, in order. -/
def placeholders (s : Text) : List Text :=
  (lexemes apart s).filterMap Lexeme.name?

/-- The text holds no placeholder. -/
def Silent (s : Text) : Prop :=
  placeholders s = []

instance (s : Text) : Decidable (Silent s) :=
  inferInstanceAs (Decidable (placeholders s = []))

variable {p q s : Text}

theorem placeholders_append (h : runsInto apart p q = false) :
    placeholders (p ++ q) = placeholders p ++ placeholders q := by
  unfold placeholders
  rw [lexemes_append h, List.filterMap_append]

section Words

/-- A character that is a lexeme by itself whatever follows. -/
def isLone (c : Char) : Bool :=
  !(['\x27', '"', backtick, '-', '/', ':'].contains c)

theorem isLone_of {f : Char → Bool} {c : Char}
    (hf : ['\x27', '"', backtick, '-', '/', ':'].all (!f ·) = true) (hc : f c = true) :
    isLone c = true := by
  simp only [isLone, Bool.not_eq_true', List.contains_eq_mem, decide_eq_false_iff_not]
  intro hmem
  have := List.all_eq_true.1 hf c hmem
  simp [hc] at this

theorem isLone_of_isWordChar {c : Char} (h : isWordChar c = true) : isLone c = true :=
  isLone_of (by decide) h

theorem isLone_of_isBlank {c : Char} (h : isBlank c = true) : isLone c = true :=
  isLone_of (by decide) h

theorem lexemes_lone {c : Char} (h : isLone c = true) (s : Text) :
    lexemes apart (c :: s) = ⟨.code, [c]⟩ :: lexemes apart s := by
  have hfirst : Lexeme.ofChar c = ⟨.code, [c]⟩ := by
    have : ¬(c = '\x27' ∨ c = '"' ∨ c = backtick) := by
      rintro (rfl | rfl | rfl) <;> revert h <;> decide
    simp [Lexeme.ofChar, Shape.ofFirst, this]
  have hnone : ∀ d, Lexeme.extend? apart ⟨.code, [c]⟩ d = none := by
    intro d
    have hminus : c ≠ '-' := by
      rintro rfl
      revert h
      decide
    have hslash : c ≠ '/' := by
      rintro rfl
      revert h
      decide
    have hcolon : c ≠ ':' := by
      rintro rfl
      revert h
      decide
    simp [Lexeme.extend?, apart, hminus, hslash, hcolon]
  cases s with
  | nil => simp [lexemes, lexemesFrom, hfirst]
  | cons d s => simp [lexemes, lexemesFrom, hfirst, hnone]

theorem placeholders_lone {c : Char} (h : isLone c = true) (s : Text) :
    placeholders (c :: s) = placeholders s := by
  unfold placeholders
  rw [lexemes_lone h]
  rfl

theorem placeholders_dropWhile {f : Char → Bool} (hf : ∀ c, f c = true → isLone c = true)
    (s : Text) : placeholders (s.dropWhile f) = placeholders s := by
  induction s with
  | nil => rfl
  | cons c s ih =>
      rw [List.dropWhile_cons]
      split
      · next hc => rw [placeholders_lone (hf c hc), ih]
      · rfl

/-- A placeholder takes the word characters behind it. -/
theorem lexemesFrom_placeholder (read s : Text) :
    lexemesFrom apart ⟨.placeholder, read⟩ s =
      ⟨.placeholder, read ++ s.takeWhile isWordChar⟩ ::
        lexemes apart (s.dropWhile isWordChar) := by
  induction s generalizing read with
  | nil => simp [lexemesFrom, lexemes]
  | cons c s ih =>
      cases hc : isWordChar c with
      | true => simp [lexemesFrom, Lexeme.extend?, hc, ih]
      | false => simp [lexemesFrom, Lexeme.extend?, hc, lexemes]

/-- A colon with a name is one placeholder, together with the word characters behind it. -/
theorem placeholders_name {name : Text} (hne : name ≠ []) (hword : ∀ c ∈ name, isWordChar c = true)
    (s : Text) :
    placeholders (':' :: name ++ s) = (name ++ s.takeWhile isWordChar) :: placeholders s := by
  obtain ⟨c, name, rfl⟩ := List.exists_cons_of_ne_nil hne
  have hc : isWordChar c = true := hword c (by simp)
  have hname : ∀ d ∈ name, isWordChar d = true := fun d hd => hword d (by simp [hd])
  have hstep : lexemes apart (':' :: c :: name ++ s) =
      lexemesFrom apart ⟨.placeholder, [':', c]⟩ (name ++ s) := by
    simp [lexemes, lexemesFrom, Lexeme.ofChar, Shape.ofFirst, Lexeme.extend?, apart, backtick, hc]
  have hdrop := placeholders_dropWhile (fun _ => isLone_of_isWordChar) s
  unfold placeholders at hdrop ⊢
  rw [hstep, lexemesFrom_placeholder, List.takeWhile_append_of_pos hname,
    List.dropWhile_append_of_pos hname, List.filterMap_cons, hdrop]
  rfl

end Words

section Silence

/-- The beginning of a silent text is silent. -/
theorem Silent.of_append (h : Silent (p ++ q)) : Silent p := by
  cases p with
  | nil => rfl
  | cons c p =>
      obtain ⟨done, last, hp, hpq⟩ := lexemesFrom_append apart (Lexeme.ofChar c) p q
      unfold Silent placeholders at *
      rw [List.cons_append, lexemes, hpq, List.filterMap_append, List.append_eq_nil_iff] at h
      rw [lexemes, hp, List.filterMap_append, h.1, List.nil_append]
      -- a placeholder that ends the beginning is a placeholder of the whole
      obtain ⟨shape, read⟩ := last
      cases shape with
      | placeholder =>
          have := h.2
          rw [lexemesFrom_placeholder] at this
          simp [Lexeme.name?] at this
      | _ => rfl

theorem Silent.dropWhile (h : Silent s) : Silent (s.dropWhile isBlank) := by
  unfold Silent
  rw [placeholders_dropWhile (fun _ => isLone_of_isBlank), h]

theorem Silent.rdropWhile (h : Silent s) : Silent (s.rdropWhile isBlank) := by
  obtain ⟨more, hmore⟩ := List.rdropWhile_prefix isBlank s
  rw [← hmore] at h
  exact h.of_append

theorem name?_eq_none {l : Lexeme} (h : l.shape ≠ .placeholder) : l.name? = none := by
  unfold Lexeme.name?
  split
  · next hshape => exact (h hshape).elim
  · rfl

theorem ofChar_shape_ne (c : Char) : (Lexeme.ofChar c).shape ≠ .placeholder := by
  unfold Lexeme.ofChar Shape.ofFirst
  split
  · simp
  · simp

/-- Only a colon by itself becomes a placeholder. -/
theorem eq_colon_of_extend? {l : Lexeme} {c : Char}
    (h : l.extend? apart c = some .placeholder) : l.shape = .placeholder ∨ l.text = [':'] := by
  obtain ⟨shape, read⟩ := l
  cases shape with
  | code =>
      right
      by_contra hread
      simp only [Lexeme.extend?, apart, hread, false_and, and_false, if_false] at h
      split at h
      · simp at h
      · split at h
        · simp at h
        · simp at h
  | placeholder => exact .inl rfl
  | quoted quote =>
      simp only [Lexeme.extend?] at h
      split at h
      · simp at h
      · simp at h
  | closed quote => simp [Lexeme.extend?, apart] at h
  | lineComment =>
      simp only [Lexeme.extend?] at h
      split at h
      · simp at h
      · simp at h
  | blockComment =>
      simp only [Lexeme.extend?] at h
      split at h
      · simp at h
      · simp at h
  | blockStar =>
      simp only [Lexeme.extend?] at h
      split at h
      · simp at h
      · split at h
        · simp at h
        · simp at h
  | blockEnd => simp [Lexeme.extend?] at h

/-- Without a colon there is no placeholder. -/
theorem silent_of_no_colon (h : ':' ∉ s) : Silent s := by
  have hfrom : ∀ (s : Text) (l : Lexeme), ':' ∉ s → ':' ∉ l.text → l.shape ≠ .placeholder →
      (lexemesFrom apart l s).filterMap Lexeme.name? = [] := by
    intro s
    induction s with
    | nil =>
        intro l _ _ hshape
        simp [lexemesFrom, name?_eq_none hshape]
    | cons c s ih =>
        intro l hs hread hshape
        obtain ⟨hc, hs⟩ : ':' ≠ c ∧ ':' ∉ s := by simpa using hs
        rw [lexemesFrom]
        split
        · next next hext =>
            refine ih _ hs (by simpa using ⟨hread, hc⟩) ?_
            rintro rfl
            rcases eq_colon_of_extend? hext with hl | hl
            · exact hshape hl
            · simp [hl] at hread
        · rw [List.filterMap_cons, name?_eq_none hshape]
          exact ih _ hs (by simpa [Lexeme.ofChar] using hc) (ofChar_shape_ne c)
  cases s with
  | nil => rfl
  | cons c s =>
      obtain ⟨hc, hs⟩ : ':' ≠ c ∧ ':' ∉ s := by simpa using h
      exact hfrom s (Lexeme.ofChar c) hs (by simpa [Lexeme.ofChar] using hc) (ofChar_shape_ne c)

/-- A span in which every quote is doubled is silent. -/
theorem silent_quoted {quote : Char} (hquote : Shape.ofFirst quote = .quoted quote) (s : Text) :
    Silent (quote :: doubled quote s ++ [quote]) := by
  have hclosed : ∀ read rest, lexemesFrom apart ⟨.quoted quote, read⟩ (quote :: quote :: rest) =
      ⟨.closed quote, read ++ [quote]⟩ :: lexemesFrom apart ⟨.quoted quote, [quote]⟩ rest := by
    intro read rest
    simp [lexemesFrom, Lexeme.extend?, apart, Lexeme.ofChar, hquote]
  have hfrom : ∀ read, (lexemesFrom apart ⟨.quoted quote, read⟩
      (doubled quote s ++ [quote])).filterMap Lexeme.name? = [] := by
    induction s with
    | nil =>
        intro read
        simp [doubled, lexemesFrom, Lexeme.extend?, Lexeme.name?]
    | cons c s ih =>
        intro read
        have hcons : doubled quote (c :: s) =
            (if c = quote then [quote, quote] else [c]) ++ doubled quote s := rfl
        by_cases hc : c = quote
        · rw [hcons, if_pos hc, List.append_assoc, List.cons_append, List.singleton_append,
            hclosed, List.filterMap_cons, ih]
          rfl
        · rw [hcons, if_neg hc, List.append_assoc, List.singleton_append, lexemesFrom]
          simpa [Lexeme.extend?, hc] using ih (read ++ [c])
  unfold Silent placeholders
  rw [List.cons_append, lexemes, Lexeme.ofChar, hquote]
  exact hfrom [quote]

theorem silent_line (h : '\n' ∉ s) : Silent ('-' :: '-' :: s) := by
  unfold Silent placeholders
  rw [lexemes_line h]
  rfl

theorem silent_block {body : Text} {cut : Cut} (h : Restate.Lexeme.throughClose body = some cut) :
    Silent ('/' :: '*' :: cut.1) := by
  unfold Silent placeholders
  rw [lexemes_block h]
  rfl

end Silence

end Restate.Sqlite
