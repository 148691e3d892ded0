import Restate.Proofs.Lexing.Writing
import Restate.Proofs.Sqlite.Words
import Restate.Schema.Index

/-!
# Columns of an index without quotes

A plain name stands in an index as it is, every other one between double quotes. Main statement:
both dialects read a plain name back, and SQLite reads the column of an index as its name and
direction, just if no newline stands at the end of a name that is plain without it
(`IndexColumn.render_isNamed_iff`).
-/

namespace Restate

open Text Sqlite

/-- The name a lexeme gives: that of a word which is not reserved, or what stands between double
quotes. -/
def Sqlite.Lexeme.given? (l : Sqlite.Lexeme) : Option Text :=
  match l.shape with
  | .code =>
    if l.text.head?.any isWordStart && l.text.all isNameChar
        && !sqliteKeywords.contains (upper l.text) then
      some l.text
    else none
  | .closed quote => if quote = '"' then some (decodeIdentifier l.text) else none
  | _ => none

/-- What SQLite reads of a text without comments and blanks. -/
def Sqlite.meaningful (s : Text) : List Sqlite.Lexeme :=
  (lexemes together s).filter (!·.isTrivia)

/-- SQLite reads the column as its name, and as its direction behind it. -/
def IndexColumn.IsNamed (column : IndexColumn) : Prop :=
  ∃ l, meaningful column.render = l :: meaningful column.direction ∧ l.given? = some column.name

/-- The name is taken for a plain one although a newline stands at its end. -/
def HidesNewline (name : Text) : Prop :=
  isPlainIdentifier name = true ∧ name.getLast? = some '\n'

instance (name : Text) : Decidable (HidesNewline name) :=
  inferInstanceAs (Decidable (_ ∧ _))

section Plain

variable {c : Char} {s rest : Text}

theorem toNat_lt_of_isPlainChar (h : isPlainChar c = true) : c.toNat < 128 := by
  rcases Bool.or_eq_true_iff.1 h with halphanum | hunderscore
  · rcases Bool.or_eq_true_iff.1 halphanum with halpha | hdigit
    · rcases Bool.or_eq_true_iff.1 halpha with hupper | hlower
      · have hlast : c.toNat ≤ 90 := (of_decide_eq_true hupper).2
        omega
      · have hlast : c.toNat ≤ 122 := of_decide_eq_true (Bool.and_eq_true_iff.1 hlower).2
        omega
    · have hlast : c.toNat ≤ 57 := of_decide_eq_true (Bool.and_eq_true_iff.1 hdigit).2
      omega
  · obtain rfl := eq_of_beq hunderscore
    decide

/-- Plain characters are characters of words, and those that begin a word begin nothing else. -/
theorem plain_classes (h : isPlainChar c = true) :
    isNameChar c = true ∧ (isPlainStart c = true → isBlank c = false ∧ isDigitSign c = false ∧
      isWordStart c = true ∧ c ∉ ['#', '-', '/', backtick, '\x27', '"', '.']) := by
  have hall : (List.range 128).all (fun n =>
      let c := Char.ofNat n
      !isPlainChar c || isNameChar c && (!isPlainStart c || !isBlank c && !isDigitSign c &&
        isWordStart c && !(['#', '-', '/', backtick, '\x27', '"', '.'].contains c))) = true := by
    decide +kernel
  have hc := List.all_eq_true.1 hall c.toNat (List.mem_range.2 (toNat_lt_of_isPlainChar h))
  simp only [Char.ofNat_toNat, h, Bool.not_true, Bool.false_or, Bool.and_eq_true,
    Bool.or_eq_true] at hc
  refine ⟨hc.1, fun hstart => ?_⟩
  simpa [hstart, and_assoc] using hc.2

theorem isPlainChar_of_isPlainStart (h : isPlainStart c = true) : isPlainChar c = true := by
  simp only [isPlainStart, isPlainChar, Char.isAlphanum, Bool.or_eq_true] at h ⊢
  rcases h with h | h
  · exact .inl (.inl h)
  · exact .inr h

/-- A plain word is read to where no character of a word follows. -/
theorem lexeme_plain (h : isPlainWord (c :: s) = true)
    (hrest : ∀ d ∈ rest.head?, isNameChar d = false) (a : Bool) :
    lexeme a c (s ++ rest) = .ok ((Token.ofWord (c :: s)).kind, c :: s, rest) := by
  obtain ⟨hc, hs⟩ := Bool.and_eq_true_iff.1 h
  obtain ⟨-, hstart⟩ := plain_classes (isPlainChar_of_isPlainStart hc)
  obtain ⟨hblank, hdigit, hword, hsign⟩ := hstart hc
  exact lexeme_bare hblank hdigit hword hsign
    (fun d hd => (plain_classes (List.all_eq_true.1 hs d hd)).1) hrest

theorem isNameChar_of_isPlainWord (h : isPlainWord s = true) :
    s.all isNameChar = true ∧ s.head?.any isWordStart = true := by
  cases s with
  | nil => cases h
  | cons c s =>
      obtain ⟨hc, hs⟩ := Bool.and_eq_true_iff.1 h
      obtain ⟨hname, hstart⟩ := plain_classes (isPlainChar_of_isPlainStart hc)
      refine ⟨?_, (hstart hc).2.2.1⟩
      rw [List.all_cons, hname, Bool.true_and]
      exact List.all_eq_true.2 fun d hd => (plain_classes (List.all_eq_true.1 hs d hd)).1

end Plain

section Tokens

variable {name : Text}

theorem plainWord_of_isPlainIdentifier (h : isPlainIdentifier name = true)
    (hlast : name.getLast? ≠ some '\n') : isPlainWord name = true := by
  simp only [isPlainIdentifier, Bool.and_eq_true] at h
  rw [withoutFinalNewline, if_neg hlast] at h
  exact h.1.1

/-- What a newline is overlooked behind is a plain word. -/
theorem HidesNewline.exists_word (h : HidesNewline name) :
    ∃ word, name = word ++ ['\n'] ∧ isPlainWord word = true := by
  obtain ⟨hplain, hlast⟩ := h
  simp only [isPlainIdentifier, Bool.and_eq_true] at hplain
  rw [withoutFinalNewline, if_pos hlast] at hplain
  obtain ⟨word, rfl⟩ := List.getLast?_eq_some_iff.1 hlast
  exact ⟨word, rfl, by simpa using hplain.1.1⟩

/-- A plain name is one token, an identifier, if no newline is overlooked at its end. -/
theorem tokenize_plain (h : isPlainIdentifier name = true) (hlast : name.getLast? ≠ some '\n') :
    tokenize name = .ok [⟨.identifier, name, 0, name.length⟩] := by
  have hword := plainWord_of_isPlainIdentifier h hlast
  have hkeyword : keywords.contains (upper name) = false := by
    simp only [isPlainIdentifier, Bool.and_eq_true, Bool.not_eq_true'] at h
    exact h.1.2
  cases name with
  | nil => cases hword
  | cons c s =>
      have hlex : lexeme false c (s ++ []) = .ok ((Token.ofWord (c :: s)).kind, c :: s, []) :=
        lexeme_plain hword (by simp) false
      rw [List.append_nil, Token.ofWord, hkeyword] at hlex
      exact tokenize_eq_singleton_iff.2 ⟨c, s, rfl, hlex⟩

/-- With a newline at its end such a name is two tokens. -/
theorem tokenize_hidesNewline (h : HidesNewline name) :
    ∃ t u, tokenize name = .ok [t, u] := by
  obtain ⟨word, rfl, hword⟩ := h.exists_word
  cases word with
  | nil => cases hword
  | cons c s =>
      have hlexes : Lexes false (c :: s ++ ['\n'])
          [Token.ofWord (c :: s), ⟨.whitespace, ['\n'], 0, 0⟩] [] := by
        have hbreak : isNameChar '\n' = false := by decide
        refine .token (lexeme_plain hword (by simpa using hbreak) false) (.token ?_ .done)
        exact lexeme_blank (by decide)
      obtain ⟨tokens, htokens, hunplaced⟩ := hlexes.tokenize
      have hlength := congrArg List.length hunplaced
      simp only [List.length_map, List.length_cons, List.length_nil] at hlength
      obtain ⟨t, u, rfl⟩ := List.length_eq_two.1 hlength
      exact ⟨t, u, htokens⟩

/-- A plain name is read back just if it hides no newline. -/
theorem tokenize_plain_iff :
    (isPlainIdentifier name = true →
      tokenize name = .ok [⟨.identifier, name, 0, name.length⟩]) ↔ ¬ HidesNewline name := by
  constructor
  · intro h hhides
    obtain ⟨t, u, htokens⟩ := tokenize_hidesNewline hhides
    rw [h hhides.1] at htokens
    simp at htokens
  · intro hhides h
    exact tokenize_plain h fun hlast => hhides ⟨h, hlast⟩

end Tokens

section Blanks

variable {p q s : Text} {c : Char}

/-- What stands behind blanks does not belong to them. -/
theorem runsInto_blanks (hne : p ≠ []) (hp : ∀ c ∈ p, isBlank c = true)
    (hq : ∀ c ∈ q.head?, isBlank c = false) : runsInto together p q = false := by
  cases q with
  | nil => simp [runsInto]
  | cons c q =>
      have hc : isBlank c = false := hq c rfl
      obtain ⟨d, p, rfl⟩ := List.exists_cons_of_ne_nil hne
      have hd : isBlank d = true := hp d List.mem_cons_self
      have hname : isNameChar d = false := by
        rw [← Bool.not_eq_true]
        intro hname
        simp [not_isBlank_of_isNameChar hname] at hd
      have hoperators : Restate.Lexeme.operators.all (·.all (!isBlank ·)) = true := by
        decide +kernel
      have hoperator : d :: (p ++ [c]) ∉ Restate.Lexeme.operators := by
        intro hmem
        have := List.all_eq_true.1 (List.all_eq_true.1 hoperators _ hmem) d List.mem_cons_self
        simp [hd] at this
      have hcomment : d ≠ '-' ∧ d ≠ '/' := by
        constructor
        · rintro rfl
          revert hd
          decide
        · rintro rfl
          revert hd
          decide
      rw [runsInto_cons_iff (l := ⟨.code, d :: p⟩) (by rw [lexemes_blanks hne hp]; rfl)]
      simp [Sqlite.Lexeme.extend?, together, hname, hc, hoperator, hcomment]

/-- Blanks at the head of a text carry no meaning. -/
theorem meaningful_dropWhile (s : Text) : meaningful (s.dropWhile isBlank) = meaningful s := by
  by_cases hne : s.takeWhile isBlank = []
  · have hs := List.takeWhile_append_dropWhile (p := isBlank) (l := s)
    rw [hne, List.nil_append] at hs
    rw [hs]
  · have hblanks : ∀ c ∈ s.takeWhile isBlank, isBlank c = true := fun c hc =>
      List.mem_takeWhile_imp hc
    have hhead : ∀ c ∈ (s.dropWhile isBlank).head?, isBlank c = false := by
      intro c hc
      have := List.head?_dropWhile_not isBlank s
      rw [Option.mem_def.1 hc] at this
      simpa using this
    have happend := lexemes_append (runsInto_blanks hne hblanks hhead)
    rw [List.takeWhile_append_dropWhile, lexemes_blanks hne hblanks] at happend
    rw [meaningful, meaningful, happend, List.filter_append]
    have htrivia : (⟨.code, s.takeWhile isBlank⟩ : Sqlite.Lexeme).isTrivia = true := by
      simp [Sqlite.Lexeme.isTrivia]
    rw [List.filter_cons_of_neg (by simp [htrivia]), List.filter_nil, List.nil_append]

theorem meaningful_cons_blank (hc : isBlank c = true) : meaningful (c :: s) = meaningful s := by
  rw [← meaningful_dropWhile (c :: s), ← meaningful_dropWhile s, List.dropWhile_cons_of_pos hc]

/-- What a blank ends is read apart from what stands behind. -/
theorem meaningful_append (hp : ∀ c r, isBlank c = true → runsInto together p (c :: r) = false)
    (hq : ∀ c ∈ q.head?, isBlank c = true) :
    meaningful (p ++ q) = meaningful p ++ meaningful q := by
  have hapart : runsInto together p q = false := by
    cases q with
    | nil => simp [runsInto]
    | cons c q => exact hp c q (hq c rfl)
  rw [meaningful, lexemes_append hapart, List.filter_append]
  rfl

end Blanks

section Columns

variable {name : Text}

/-- A name between double quotes is one lexeme. -/
theorem meaningful_quoteIdentifier (name : Text) :
    meaningful (quoteIdentifier name) = [⟨.closed '"', quoteIdentifier name⟩] := by
  rw [meaningful, lexemes_quoteIdentifier]
  rfl

theorem runsInto_quoteIdentifier (name : Text) {c : Char} (hc : isBlank c = true) (r : Text) :
    runsInto together (quoteIdentifier name) (c :: r) = false := by
  rw [runsInto_cons_iff (l := ⟨.closed '"', quoteIdentifier name⟩)
    (by rw [lexemes_quoteIdentifier]; rfl)]
  refine if_neg ?_
  rintro ⟨-, rfl⟩
  revert hc
  decide

/-- A plain word is one lexeme. -/
theorem meaningful_plainWord (h : isPlainWord name = true) :
    meaningful name = [Sqlite.Lexeme.word name] := by
  obtain ⟨hall, hhead⟩ := isNameChar_of_isPlainWord h
  have hne : name ≠ [] := by
    rintro rfl
    cases h
  have htrivia : (Sqlite.Lexeme.word name).isTrivia = false := by
    obtain ⟨c, s, rfl⟩ := List.exists_cons_of_ne_nil hne
    have hc : isBlank c = false :=
      not_isBlank_of_isNameChar (List.all_eq_true.1 hall c List.mem_cons_self)
    simp [Sqlite.Lexeme.isTrivia, Sqlite.Lexeme.word, Shape.isComment, hc]
  rw [meaningful, lexemes_word hne hall, List.filter_cons_of_pos (by rw [htrivia]; rfl)]
  rfl

theorem runsInto_plainWord (h : isPlainWord name = true) {c : Char} (hc : isBlank c = true)
    (r : Text) : runsInto together name (c :: r) = false := by
  obtain ⟨hall, -⟩ := isNameChar_of_isPlainWord h
  have hne : name ≠ [] := by
    rintro rfl
    cases h
  rw [runsInto_of_word hne hall, beginsWithWord, ← Bool.not_eq_true]
  intro hname
  have hblank : isBlank c = false := not_isBlank_of_isNameChar hname
  simp [hc] at hblank

/-- What stands in an index behind the name of a column. -/
def IndexColumn.suffix (column : IndexColumn) : Text :=
  if column.direction.isEmpty then [] else ' ' :: column.direction

theorem IndexColumn.render_eq (column : IndexColumn) :
    column.render = bareOrQuoted column.name ++ column.suffix := by
  unfold render suffix
  split
  · exact (List.append_nil _).symm
  · rw [List.append_assoc]
    rfl

variable (column : IndexColumn)

theorem IndexColumn.head?_suffix : ∀ c ∈ column.suffix.head?, isBlank c = true := by
  unfold suffix
  split
  · simp
  · simpa using (by decide : isBlank ' ' = true)

theorem IndexColumn.meaningful_suffix : meaningful column.suffix = meaningful column.direction := by
  unfold suffix
  split
  · next hempty => rw [List.isEmpty_iff.1 hempty]
  · exact meaningful_cons_blank (by decide)

/-- What is written as the name is read apart from the direction. -/
theorem IndexColumn.meaningful_append_suffix {core : Text} (blanks : Text)
    (hcore : ∀ c r, isBlank c = true → runsInto together core (c :: r) = false)
    (hblanks : ∀ c ∈ blanks, isBlank c = true) :
    meaningful (core ++ (blanks ++ column.suffix)) =
      meaningful core ++ meaningful column.direction := by
  have hmeaning : meaningful (blanks ++ column.suffix) = meaningful column.direction := by
    induction blanks with
    | nil => exact column.meaningful_suffix
    | cons c blanks ih =>
        obtain ⟨hc, hblanks⟩ := List.forall_mem_cons.1 hblanks
        rw [List.cons_append, meaningful_cons_blank hc, ih hblanks]
  rw [meaningful_append hcore, hmeaning]
  intro c hc
  cases blanks with
  | nil => exact column.head?_suffix c hc
  | cons d blanks =>
      obtain rfl : d = c := Option.some.inj hc
      exact hblanks d List.mem_cons_self

theorem IndexColumn.isNamed_of_quoted (hplain : isPlainIdentifier column.name = false) :
    column.IsNamed := by
  have hrender : column.render = quoteIdentifier column.name ++ ([] ++ column.suffix) := by
    rw [column.render_eq, bareOrQuoted, hplain]
    rfl
  refine ⟨⟨.closed '"', quoteIdentifier column.name⟩, ?_, ?_⟩
  · rw [hrender, column.meaningful_append_suffix []
      (fun c r hc => runsInto_quoteIdentifier column.name hc r) (by simp),
      meaningful_quoteIdentifier]
    rfl
  · exact congrArg some (decodeIdentifier_quoteIdentifier column.name)

theorem IndexColumn.isNamed_of_plain (hplain : isPlainIdentifier column.name = true)
    (hlast : column.name.getLast? ≠ some '\n') : column.IsNamed := by
  have hword := plainWord_of_isPlainIdentifier hplain hlast
  have hrender : column.render = column.name ++ ([] ++ column.suffix) := by
    rw [column.render_eq, bareOrQuoted, if_pos hplain]
    rfl
  refine ⟨Sqlite.Lexeme.word column.name, ?_, ?_⟩
  · rw [hrender, column.meaningful_append_suffix []
      (fun c r hc => runsInto_plainWord hword hc r) (by simp), meaningful_plainWord hword]
    rfl
  · obtain ⟨hall, hhead⟩ := isNameChar_of_isPlainWord hword
    have hreserved : sqliteKeywords.contains (upper column.name) = false := by
      simp only [isPlainIdentifier, Bool.and_eq_true, Bool.not_eq_true'] at hplain
      exact hplain.2
    exact if_pos (by simp only [Sqlite.Lexeme.word, hall, hhead, hreserved]; rfl)

/-- SQLite reads the word before the newline, which is another name. -/
theorem IndexColumn.not_isNamed_of_hidesNewline (h : HidesNewline column.name) :
    ¬ column.IsNamed := by
  obtain ⟨word, hname, hword⟩ := h.exists_word
  have hrender : column.render = word ++ (['\n'] ++ column.suffix) := by
    rw [column.render_eq, bareOrQuoted, if_pos h.1, hname, List.append_assoc]
  have hsuffix := column.meaningful_append_suffix ['\n']
    (fun c r hc => runsInto_plainWord hword hc r)
    (by simpa using (by decide : isBlank '\n' = true))
  rintro ⟨l, hread, hgiven⟩
  rw [hrender, hsuffix, meaningful_plainWord hword] at hread
  obtain rfl : Sqlite.Lexeme.word word = l := (List.cons.inj hread).1
  unfold Sqlite.Lexeme.given? at hgiven
  obtain ⟨-, hsame⟩ := Option.ite_none_right_eq_some.1 hgiven
  have hlength := congrArg List.length (Option.some.inj hsame)
  simp [hname, Sqlite.Lexeme.word] at hlength

/-- Both dialects read a name that is taken for plain back, and SQLite reads a column of an index as
its name and direction, just if the name hides no newline at its end. -/
theorem IndexColumn.render_isNamed_iff :
    ((isPlainIdentifier column.name = true →
      tokenize column.name = .ok [⟨.identifier, column.name, 0, column.name.length⟩]) ↔
        ¬ HidesNewline column.name) ∧
    (column.IsNamed ↔ ¬ HidesNewline column.name) := by
  refine ⟨tokenize_plain_iff, fun hnamed hhides => ?_, fun hhides => ?_⟩
  · exact column.not_isNamed_of_hidesNewline hhides hnamed
  · cases hplain : isPlainIdentifier column.name with
    | false => exact column.isNamed_of_quoted hplain
    | true => exact column.isNamed_of_plain hplain fun hlast => hhides ⟨hplain, hlast⟩

/-- The name of a column of an index may end in a newline, and SQLite takes the name before it. -/
theorem IndexColumn.render_hidesNewline :
    isPlainIdentifier ['a', '\n'] = true ∧
    tokenize ['a', '\n'] ≠ .ok [⟨.identifier, ['a', '\n'], 0, 2⟩] ∧
    (meaningful (IndexColumn.render ⟨['a', '\n'], []⟩)).map Sqlite.Lexeme.given? =
      [some ['a']] := by
  decide +kernel

end Columns

end Restate
