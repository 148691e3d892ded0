import Mathlib.Data.List.Chain
import Mathlib.Data.List.Forall2
import Restate.Proofs.Schema.IndexForms

/-!
# Clauses of a column

How a column is written behind its name: a type with arguments and modifiers, and clauses of which
some end in what may be left out. Main statements: clauses that follow each other are read as what
they say, for none takes the beginning of the next one with it but `PRIMARY` or `UNIQUE` before
`KEY` (`Reading.Yields.gather_clauses`), and what is read for a default is of one of the forms that
a default has (`Reading.defaultValue_reads`).
-/

namespace Restate

/-- Parentheses with what stands in them, or nothing. -/
def IsArguments (piece : List Token) : Prop :=
  piece = [] ∨ ∃ inner, IsGroup inner piece

/-- The tokens are a value for a default, which SQLite is given as the text. -/
inductive IsDefault : Text → List Token → Prop where
  | string {t : Token} : t.kind = .string → IsDefault (quoteString t.value) [t]
  | number {t : Token} : t.kind = .number → IsDefault t.text [t]
  | signed {sign number : Token} : (sign.isOperator "-" || sign.isOperator "+") = true →
      number.kind = .number → IsDefault (sign.text ++ number.text) [sign, number]
  | expression {inner piece : List Token} : IsGroup inner piece →
      IsDefault (renderTokens piece) piece
  | constant {t : Token} : t.isWord ["NULL", "TRUE", "FALSE"] = true → IsDefault t.upper [t]
  | currentTime {t : Token} {name : Text} {arguments : List Token} :
      Reading.currentTime? t = some name → IsArguments arguments → IsDefault name (t :: arguments)
  | bits {t literal : Token} {numeral : Text} : t.isWord ["B"] = true → literal.kind = .string →
      t.touches literal = true → bitNumeral literal.value = .ok numeral →
      IsDefault numeral [t, literal]
  | bytes {t literal : Token} : t.isWord ["X"] = true → literal.kind = .string →
      t.touches literal = true → IsDefault ("X'" ++ literal.value ++ "'") [t, literal]

/-- The tokens are a clause, and what it says of the column. -/
inductive IsClause : ColumnClause → List Token → Prop where
  | notNull {first second : Token} : first.isWord ["NOT"] = true → second.isWord ["NULL"] = true →
      IsClause (.nullable false) [first, second]
  | null {word : Token} : word.isWord ["NULL"] = true → IsClause (.nullable true) [word]
  | default {word : Token} {value : Text} {piece : List Token} : word.isWord ["DEFAULT"] = true →
      IsDefault value piece → IsClause (.default value) (word :: piece)
  | autoIncrement {word : Token} : word.isWord ["AUTO_INCREMENT"] = true →
      IsClause .autoIncrement [word]
  | primary {word : Token} : word.isWord ["PRIMARY"] = true → IsClause .primaryKey [word]
  | primaryKey {first second : Token} : first.isWord ["PRIMARY"] = true →
      second.isWord ["KEY"] = true → IsClause .primaryKey [first, second]
  | key {word : Token} : word.isWord ["KEY"] = true → IsClause .primaryKey [word]
  | unique {word : Token} : word.isWord ["UNIQUE"] = true → IsClause .unique [word]
  | uniqueKey {first second : Token} : first.isWord ["UNIQUE"] = true →
      second.isWord ["KEY"] = true → IsClause .unique [first, second]
  | comment {word literal : Token} : word.isWord ["COMMENT"] = true → literal.kind = .string →
      IsClause .omitted [word, literal]
  | characterSet {words sign : List Token} {name : Token} :
      ((∃ first second, words = [first, second] ∧ first.isWord ["CHARACTER"] = true ∧
        second.isWord ["SET"] = true) ∨
        ∃ word, words = [word] ∧ word.isWord ["CHARSET", "COLLATE"] = true) →
      (sign = [] ∨ ∃ t, sign = [t] ∧ t.isOperator "=" = true) → name.kind.isBare = true →
      IsClause .omitted (words ++ (sign ++ [name]))
  | onUpdate {first second value : Token} {arguments : List Token} : first.isWord ["ON"] = true →
      second.isWord ["UPDATE"] = true → value.kind.isBare = true → IsArguments arguments →
      IsClause .omitted (first :: second :: value :: arguments)

/-- The clause is one word, which is the given one. -/
def IsBare (word : Text) (piece : List Token) : Prop :=
  ∃ t, piece = [t] ∧ t.isWord [word] = true

/-- The tokens are a type of the given name, with arguments and modifiers. -/
inductive IsType : Text → List Token → Prop where
  | word {t : Token} {arguments modifiers : List Token} : t.kind.isBare = true →
      IsArguments arguments → (∀ m ∈ modifiers, m.isWord Reading.typeModifiers = true) →
      IsType t.text (t :: (arguments ++ modifiers))
  | precise {first second : Token} {arguments modifiers : List Token} :
      first.isWord ["DOUBLE"] = true → second.isWord ["PRECISION"] = true →
      IsArguments arguments → (∀ m ∈ modifiers, m.isWord Reading.typeModifiers = true) →
      IsType "double precision" (first :: second :: (arguments ++ modifiers))

/-- The words with which a clause begins. -/
def clauseWords : List Text :=
  ["NOT", "NULL", "DEFAULT", "AUTO_INCREMENT", "PRIMARY", "KEY", "UNIQUE", "COMMENT", "CHARACTER",
   "CHARSET", "COLLATE", "ON"]

theorem IsClause.head {clause : ColumnClause} {piece : List Token} (h : IsClause clause piece) :
    ∃ t more, piece = t :: more ∧ t.isWord clauseWords = true := by
  have hword : ∀ {t : Token} {words : List Text}, t.isWord words = true → words ⊆ clauseWords →
      t.isWord clauseWords = true := fun h hsubset => Token.isWord_of_subset h hsubset
  cases h with
  | notNull h _ => exact ⟨_, _, rfl, hword h (by decide)⟩
  | null h => exact ⟨_, _, rfl, hword h (by decide)⟩
  | default h _ => exact ⟨_, _, rfl, hword h (by decide)⟩
  | autoIncrement h => exact ⟨_, _, rfl, hword h (by decide)⟩
  | primary h => exact ⟨_, _, rfl, hword h (by decide)⟩
  | primaryKey h _ => exact ⟨_, _, rfl, hword h (by decide)⟩
  | key h => exact ⟨_, _, rfl, hword h (by decide)⟩
  | unique h => exact ⟨_, _, rfl, hword h (by decide)⟩
  | uniqueKey h _ => exact ⟨_, _, rfl, hword h (by decide)⟩
  | comment h _ => exact ⟨_, _, rfl, hword h (by decide)⟩
  | characterSet hwords _ _ =>
      rcases hwords with ⟨first, second, rfl, h, -⟩ | ⟨word, rfl, h⟩
      · exact ⟨_, _, rfl, hword h (by decide)⟩
      · exact ⟨_, _, rfl, hword h (by decide)⟩
  | onUpdate h _ _ _ => exact ⟨_, _, rfl, hword h (by decide)⟩

/-- A clause that begins with `PRIMARY` or `KEY` is one for the primary key, and one that begins
with `KEY` is that word alone. -/
theorem IsClause.primaryKey_of_head {clause : ColumnClause} {piece : List Token} {t : Token}
    (h : IsClause clause piece) (hhead : t ∈ piece.head?)
    (ht : t.isWord ["PRIMARY", "KEY"] = true) :
    clause = .primaryKey ∧ (t.isWord ["KEY"] = true → piece = [t]) := by
  have hother : ∀ {u : Token} {words : List Text} {more : List Token}, t ∈ (u :: more).head? →
      u.isWord words = true → ¬ ∀ word ∈ words, word ∉ (["PRIMARY", "KEY"] : List Text) := by
    intro u words more hu hword hdisjoint
    obtain rfl : u = t := Option.some.inj hu
    exact ne_true_of_eq_false (Token.isWord_of_disjoint hword hdisjoint) ht
  cases h with
  | key hword =>
      obtain rfl := Option.some.inj hhead
      exact ⟨rfl, fun _ => rfl⟩
  | primary hword =>
      obtain rfl := Option.some.inj hhead
      exact ⟨rfl, fun _ => rfl⟩
  | primaryKey hword _ =>
      obtain rfl := Option.some.inj hhead
      have hkey := Token.isWord_of_disjoint hword
        (show ∀ word ∈ (["PRIMARY"] : List Text), word ∉ (["KEY"] : List Text) by decide)
      exact ⟨rfl, fun h => (ne_true_of_eq_false hkey h).elim⟩
  | notNull hword _ => exact (hother hhead hword (by decide)).elim
  | null hword => exact (hother hhead hword (by decide)).elim
  | default hword _ => exact (hother hhead hword (by decide)).elim
  | autoIncrement hword => exact (hother hhead hword (by decide)).elim
  | unique hword => exact (hother hhead hword (by decide)).elim
  | uniqueKey hword _ => exact (hother hhead hword (by decide)).elim
  | comment hword _ => exact (hother hhead hword (by decide)).elim
  | onUpdate hword _ _ _ => exact (hother hhead hword (by decide)).elim
  | characterSet hwords _ _ =>
      rcases hwords with ⟨first, second, rfl, hword, -⟩ | ⟨word, rfl, hword⟩
      · exact (hother hhead hword (by decide)).elim
      · exact (hother hhead hword (by decide)).elim

/-- Clauses are written one after another, and `UNIQUE` is not right before a `KEY` of its own. -/
structure WritesClauses (clauses : List ColumnClause) (pieces : List (List Token)) : Prop where
  clauses : List.Forall₂ IsClause clauses pieces
  apart : pieces.IsChain fun piece next => IsBare "UNIQUE" piece → ¬ IsBare "KEY" next

/-- What stands first among clauses begins the first of them. -/
theorem exists_head_flatten {clauses : List ColumnClause} {pieces : List (List Token)} {t : Token}
    (h : List.Forall₂ IsClause clauses pieces) (ht : t ∈ pieces.flatten.head?) :
    t.isWord clauseWords = true ∧ ∃ clause clauses' piece pieces', clauses = clause :: clauses' ∧
      pieces = piece :: pieces' ∧ IsClause clause piece ∧ t ∈ piece.head? := by
  cases h with
  | nil => simp at ht
  | @cons clause piece clauses pieces hclause _ =>
      obtain ⟨first, more, rfl, hfirst⟩ := hclause.head
      obtain rfl : first = t := by simpa using ht
      exact ⟨hfirst, clause, clauses, _, pieces, rfl, rfl, hclause, rfl⟩

namespace Reading

variable {c c' : Cursor}

theorem skipGroup_reads {u : Unit} (h : Reading.skipGroup c = (.ok u, c')) :
    ∃ piece, IsArguments piece ∧ c.ahead = piece ++ c'.ahead := by
  obtain ⟨d, middle, hd, hrest⟩ := bind_ok h
  obtain ⟨rfl, rfl⟩ := here_ok hd
  split at hrest
  · obtain ⟨piece, last, hgroup, hrest⟩ := bind_ok hrest
    obtain ⟨-, rfl⟩ := pure_ok hrest
    obtain ⟨inner, hinner, hahead⟩ := group_reads hgroup
    exact ⟨piece, .inr ⟨inner, hinner⟩, hahead⟩
  · obtain ⟨-, rfl⟩ := pure_ok hrest
    exact ⟨[], .inl rfl, rfl⟩

theorem introducedDefault_reads {t : Token} {value : Text}
    (h : introducedDefault t c = (.ok value, c')) :
    ∃ literal, c.ahead = literal :: c'.ahead ∧ IsDefault value [t, literal] := by
  obtain ⟨d, middle, hd, hrest⟩ := bind_ok h
  obtain ⟨rfl, rfl⟩ := here_ok hd
  cases hnext : c.next? with
  | none =>
      rw [hnext] at hrest
      exact (fail_not_ok hrest).elim
  | some literal =>
      rw [hnext] at hrest
      dsimp only at hrest
      split at hrest
      · next hmarks =>
          simp only [Bool.and_eq_true, beq_iff_eq] at hmarks
          obtain ⟨⟨hword, hstring⟩, htouches⟩ := hmarks
          obtain ⟨literal', last, hadvance, hrest⟩ := bind_ok hrest
          have hahead := advance_reads hadvance
          obtain rfl : literal' = literal := by
            simpa [Cursor.next?, hahead] using hnext
          obtain ⟨hbare, hupper⟩ := Token.isWord_iff.1 hword
          split at hrest
          · next hbits =>
              have hmark : t.isWord ["B"] = true := Token.isWord_iff.2 ⟨hbare, by simp [hbits]⟩
              cases hnumeral : bitNumeral literal'.value with
              | ok numeral =>
                  rw [hnumeral] at hrest
                  obtain ⟨rfl, rfl⟩ := pure_ok hrest
                  exact ⟨literal', hahead, .bits hmark hstring htouches hnumeral⟩
              | error fault =>
                  rw [hnumeral] at hrest
                  cases (lift_ok hrest).1
          · next hbits =>
              have hmark : t.isWord ["X"] = true :=
                Token.isWord_iff.2 ⟨hbare, by simpa [hbits] using hupper⟩
              obtain ⟨rfl, rfl⟩ := pure_ok hrest
              exact ⟨literal', hahead, .bytes hmark hstring htouches⟩
      · exact (fail_not_ok hrest).elim

/-- Nothing else is read for a default than its forms. -/
theorem defaultValue_reads {value : Text} (h : Reading.defaultValue c = (.ok value, c')) :
    ∃ piece, IsDefault value piece ∧ c.ahead = piece ++ c'.ahead := by
  obtain ⟨d, middle, hd, hrest⟩ := bind_ok h
  obtain ⟨rfl, rfl⟩ := here_ok hd
  split at hrest
  · obtain ⟨piece, last, hgroup, hrest⟩ := bind_ok hrest
    obtain ⟨rfl, rfl⟩ := pure_ok hrest
    obtain ⟨inner, hinner, hahead⟩ := group_reads hgroup
    exact ⟨piece, .expression hinner, hahead⟩
  · obtain ⟨t, last, hadvance, hrest⟩ := bind_ok hrest
    have hahead := advance_reads hadvance
    split at hrest
    · next hstring =>
        obtain ⟨rfl, rfl⟩ := pure_ok hrest
        exact ⟨[t], .string hstring, hahead⟩
    split at hrest
    · next hnumber =>
        obtain ⟨rfl, rfl⟩ := pure_ok hrest
        exact ⟨[t], .number hnumber, hahead⟩
    split at hrest
    · next hsign =>
        obtain ⟨number, behind, hadvance, hrest⟩ := bind_ok hrest
        have hbehind := advance_reads hadvance
        split at hrest
        · next hnumber =>
            obtain ⟨rfl, rfl⟩ := pure_ok hrest
            exact ⟨[t, number], .signed hsign hnumber, by rw [hahead, hbehind]; rfl⟩
        · exact (fail_not_ok hrest).elim
    split at hrest
    · next hconstant =>
        obtain ⟨rfl, rfl⟩ := pure_ok hrest
        exact ⟨[t], .constant hconstant, hahead⟩
    cases htime : currentTime? t with
    | some name =>
        rw [htime] at hrest
        obtain ⟨u, behind, hgroup, hrest⟩ := bind_ok hrest
        obtain ⟨rfl, rfl⟩ := pure_ok hrest
        obtain ⟨arguments, harguments, hbehind⟩ := skipGroup_reads hgroup
        exact ⟨t :: arguments, .currentTime htime harguments, by rw [hahead, hbehind]; rfl⟩
    | none =>
        rw [htime] at hrest
        obtain ⟨literal, hbehind, hdefault⟩ := introducedDefault_reads hrest
        exact ⟨[t, literal], hdefault, by rw [hahead, hbehind]; rfl⟩

end Reading

namespace Reading.Yields

variable {α : Type} {t : Token} {piece rest : List Token} {a : α}

/-- What stands behind a clause is no opening parenthesis. -/
theorem skipGroup (h : IsArguments piece) (hrest : ∀ t ∈ rest.head?, t.isPunct "(" = false) :
    Yields Reading.skipGroup piece () rest := by
  rcases h with rfl | ⟨inner, hgroup⟩
  · exact avoiding hrest (pure ())
  · refine choosing ?_ (last (group hgroup) (pure ()))
    obtain ⟨opening, closing, rfl, hopen, -⟩ := hgroup
    simpa using hopen

/-- A default is read through its value, if no parenthesis follows. -/
theorem defaultValue {value : Text} (h : IsDefault value piece)
    (hrest : ∀ t ∈ rest.head?, t.isPunct "(" = false) :
    Yields Reading.defaultValue piece value rest := by
  have hbare : ∀ {t : Token}, t.kind.isBare = true → t.kind ≠ .string ∧ t.kind ≠ .number ∧
      ¬ (t.isOperator "-" || t.isOperator "+") = true ∧ t.isPunct "(" = false := by
    intro t hbare
    cases hkind : t.kind with
    | keyword | identifier => simp [Token.isOperator, Token.isPunct, hkind]
    | _ => simp [hkind, TokenKind.isBare] at hbare
  cases h with
  | expression hgroup =>
      refine choosing ?_ (last (group hgroup) (pure _))
      obtain ⟨opening, closing, rfl, hopen, -⟩ := hgroup
      simpa using hopen
  | string hkind =>
      refine avoiding (by simp [Token.isPunct, hkind]) (cons advance ?_)
      rw [if_pos hkind]
      exact pure _
  | number hkind =>
      refine avoiding (by simp [Token.isPunct, hkind]) (cons advance ?_)
      rw [if_neg (by simp [hkind]), if_pos hkind]
      exact pure _
  | @signed sign number hsign hnumber =>
      have hkind : sign.kind = .operator := by
        simp only [Token.isOperator, Bool.or_eq_true, Bool.and_eq_true, beq_iff_eq] at hsign
        exact hsign.elim And.left And.left
      refine avoiding (by simp [Token.isPunct, hkind]) (cons advance ?_)
      rw [if_neg (by simp [hkind]), if_neg (by simp [hkind]), if_pos hsign]
      refine cons advance ?_
      rw [if_pos hnumber]
      exact pure _
  | constant hword =>
      obtain ⟨hstring, hnumber, hsign, hopen⟩ := hbare (Token.isWord_iff.1 hword).1
      refine avoiding (by simpa using hopen) (cons advance ?_)
      rw [if_neg hstring, if_neg hnumber, if_neg hsign, if_pos hword]
      exact pure _
  | @currentTime t name arguments htime harguments =>
      have htimes := htime
      unfold currentTime? at htimes
      obtain ⟨hkind, htimes⟩ := Option.ite_none_right_eq_some.1 htimes
      obtain ⟨hstring, hnumber, hsign, hopen⟩ := hbare hkind
      have hconstant : ¬ t.isWord ["NULL", "TRUE", "FALSE"] = true := by
        intro hword
        have hnone : ∀ word ∈ (["NULL", "TRUE", "FALSE"] : List Text),
            currentTimes.get? word = none := by decide
        rw [hnone _ (Token.isWord_iff.1 hword).2] at htimes
        simp at htimes
      refine avoiding (by simpa using hopen) (cons advance ?_)
      rw [if_neg hstring, if_neg hnumber, if_neg hsign, if_neg hconstant, htime]
      exact last (skipGroup harguments hrest) (pure _)
  | @bits t literal numeral hword hstring htouches hnumeral =>
      have hmarks : t.isWord ["B", "X"] = true := Token.isWord_of_subset hword (by decide)
      have hupper : t.upper = ['B'] := List.mem_singleton.1 (Token.isWord_iff.1 hword).2
      intro passed
      rw [defaultValue_of_introducer (show _ = t :: literal :: rest from rfl) hmarks,
        introducedDefault_of_literal (show _ = literal :: rest from rfl) hmarks hstring htouches,
        if_pos hupper, hnumeral]
      rfl
  | @bytes t literal hword hstring htouches =>
      have hmarks : t.isWord ["B", "X"] = true := Token.isWord_of_subset hword (by decide)
      have hupper : t.upper = ['X'] := List.mem_singleton.1 (Token.isWord_iff.1 hword).2
      intro passed
      rw [defaultValue_of_introducer (show _ = t :: literal :: rest from rfl) hmarks,
        introducedDefault_of_literal (show _ = literal :: rest from rfl) hmarks hstring htouches,
        if_neg (by rw [hupper]; decide)]
      rfl

/-- A sequence of words is accepted as a whole. -/
theorem acceptWords {words : List Text}
    (h : List.Forall₂ (fun (word : Text) t => t.isWord [word] = true) words piece) :
    Yields (Reading.acceptWords words) piece true rest := by
  have hbegins : beginsWith words (piece ++ rest) = true := by
    induction h with
    | nil => rfl
    | cons hword _ ih => rw [List.cons_append, beginsWith, hword, ih]; rfl
  intro passed
  rw [Reading.acceptWords, if_pos hbegins, h.length_eq, Cursor.skip]
  dsimp only
  rw [List.take_left, List.drop_left]

/-- A choice by a sequence of words is passed over if another word is there. -/
theorem skipping {word : Text} {words : List Text} {x y : Reading α}
    (h : ∀ t ∈ (piece ++ rest).head?, t.isWord [word] = false) (hy : Yields y piece a rest) :
    Yields (do if ← Reading.acceptWords (word :: words) then x else y) piece a rest := by
  refine stay (skipWords h) ?_
  rw [if_neg Bool.false_ne_true]
  exact hy

/-- It is taken if the words are there. -/
theorem taking {words : List Text} {x y : Reading α} {front : List Token}
    (h : List.Forall₂ (fun (word : Text) t => t.isWord [word] = true) words front)
    (hx : Yields x piece a rest) :
    Yields (do if ← Reading.acceptWords words then x else y) (front ++ piece) a rest := by
  refine bind (acceptWords h) ?_
  rw [if_pos rfl]
  exact hx

theorem acceptCharacterSet
    (h : (∃ first second, piece = [first, second] ∧ first.isWord ["CHARACTER"] = true ∧
        second.isWord ["SET"] = true) ∨
      ∃ word, piece = [word] ∧ word.isWord ["CHARSET", "COLLATE"] = true) :
    Yields Reading.acceptCharacterSet piece true rest := by
  rcases h with ⟨first, second, rfl, hfirst, hsecond⟩ | ⟨word, rfl, hword⟩
  · exact taking (.cons hfirst (.cons hsecond .nil)) (pure true)
  · have hother : word.isWord ["CHARACTER"] = false := Token.isWord_of_disjoint hword (by decide)
    exact skipping (by simpa using hother) (cons (accept hword) (pure true))

theorem skipSetting {sign : List Token} (hname : t.kind.isBare = true)
    (hsign : sign = [] ∨ ∃ u, sign = [u] ∧ u.isOperator "=" = true) :
    Yields Reading.skipSetting (sign ++ [t]) () rest := by
  rcases hsign with rfl | ⟨u, rfl, hu⟩
  · have hnot : t.isOperator "=" = false := by
      cases hkind : t.kind with
      | keyword | identifier => simp [Token.isOperator, hkind]
      | _ => simp [hkind, TokenKind.isBare] at hname
    exact stay (decline (by simpa using hnot)) (cons advance (pure ()))
  · exact cons (accept hu) (cons advance (pure ()))

/-- A clause is read as what it says, if a clause follows it or nothing. Where it is one word that
may be followed by `KEY`, that word must not follow. -/
theorem clause {said : ColumnClause} (column : Text) (h : IsClause said piece)
    (hrest : ∀ t ∈ rest.head?, t.isWord clauseWords = true)
    (hkey : IsBare "PRIMARY" piece ∨ IsBare "UNIQUE" piece →
      ∀ t ∈ rest.head?, t.isWord ["KEY"] = false) :
    Yields (columnClause column) piece said rest := by
  have hopen : ∀ t ∈ rest.head?, t.isPunct "(" = false := fun t ht =>
    Token.not_isPunct_of_isWord (hrest t ht) "("
  -- a word that is not asked for is not taken
  have hother : ∀ {t : Token} {words others : List Text} {more : List Token},
      t.isWord words = true → (∀ word ∈ words, word ∉ others) →
      ∀ u ∈ (t :: more).head?, u.isWord others = false := by
    intro t words others more hword hdisjoint
    simpa using Token.isWord_of_disjoint hword hdisjoint
  -- the choices before that of a clause's own word are passed over one by one
  cases h with
  | notNull hfirst hsecond => exact taking (.cons hfirst (.cons hsecond .nil)) (pure _)
  | null hword => exact skipping (hother hword (by decide)) (accepting hword (pure _))
  | default hword hvalue =>
      refine skipping (hother hword (by decide)) ?_
      repeat refine declining (hother hword (by decide)) ?_
      exact accepting hword (last (defaultValue hvalue hopen) (pure _))
  | autoIncrement hword =>
      refine skipping (hother hword (by decide)) ?_
      repeat refine declining (hother hword (by decide)) ?_
      exact accepting hword (pure _)
  | primary hword =>
      refine skipping (hother hword (by decide)) ?_
      repeat refine declining (hother hword (by decide)) ?_
      exact accepting hword (stay (decline (hkey (.inl ⟨_, rfl, hword⟩))) (pure _))
  | primaryKey hword hsecond =>
      refine skipping (hother hword (by decide)) ?_
      repeat refine declining (hother hword (by decide)) ?_
      exact accepting hword (cons (accept hsecond) (pure _))
  | key hword =>
      refine skipping (hother hword (by decide)) ?_
      repeat refine declining (hother hword (by decide)) ?_
      exact accepting hword (pure _)
  | unique hword =>
      refine skipping (hother hword (by decide)) ?_
      repeat refine declining (hother hword (by decide)) ?_
      exact accepting hword (stay (decline (hkey (.inr ⟨_, rfl, hword⟩))) (pure _))
  | uniqueKey hword hsecond =>
      refine skipping (hother hword (by decide)) ?_
      repeat refine declining (hother hword (by decide)) ?_
      exact accepting hword (cons (accept hsecond) (pure _))
  | comment hword hliteral =>
      refine skipping (hother hword (by decide)) ?_
      repeat refine declining (hother hword (by decide)) ?_
      exact accepting hword (cons advance (pure _))
  | @characterSet words sign name hwords hsign hname =>
      have hword : ∀ u ∈ (words ++ (sign ++ [name]) ++ rest).head?,
          u.isWord ["CHARACTER", "CHARSET", "COLLATE"] = true := by
        rcases hwords with ⟨first, second, rfl, hfirst, -⟩ | ⟨word, rfl, hword⟩
        · simpa using Token.isWord_of_subset hfirst (by decide)
        · simpa using Token.isWord_of_subset hword (by decide)
      have hpast : ∀ {others : List Text},
          (∀ word ∈ (["CHARACTER", "CHARSET", "COLLATE"] : List Text), word ∉ others) →
          ∀ u ∈ (words ++ (sign ++ [name]) ++ rest).head?, u.isWord others = false :=
        fun hdisjoint u hu => Token.isWord_of_disjoint (hword u hu) hdisjoint
      refine skipping (hpast (by decide)) ?_
      repeat refine declining (hpast (by decide)) ?_
      refine bind (acceptCharacterSet hwords) ?_
      rw [if_pos rfl]
      exact last (skipSetting hname hsign) (pure _)
  | onUpdate hword hsecond hvalue harguments =>
      refine skipping (hother hword (by decide)) ?_
      repeat refine declining (hother hword (by decide)) ?_
      refine stay (skipping (hother hword (by decide))
        (stay (decline (hother hword (by decide))) (pure false))) ?_
      rw [if_neg Bool.false_ne_true]
      exact taking (.cons hword (.cons hsecond .nil))
        (last (cons advance (skipGroup harguments hopen)) (pure _))

/-- A step that passes tokens is repeated behind them. -/
theorem gather_cons {step : Reading α} {more : List Token} {as : List α} (hpiece : piece ≠ [])
    (h : Yields step piece a more) (hmore : Yields (gather step) more as []) :
    Yields (gather step) (piece ++ more) (a :: as) [] := by
  intro passed
  have hread := h passed
  have hbehind := hmore (piece.reverse ++ passed)
  rw [List.append_nil] at hbehind ⊢
  unfold gather at hbehind ⊢
  have hlt : more.length < (piece ++ more).length := by
    have := List.length_pos_iff.2 hpiece
    rw [List.length_append]
    omega
  rw [collect, if_neg (by simpa [Cursor.atEnd] using fun h => (hpiece h).elim), hread]
  dsimp only
  rw [if_pos hlt]
  generalize collect step ⟨piece.reverse ++ passed, more⟩ = outcome at hbehind
  obtain ⟨collected, ended, c⟩ := outcome
  cases ended with
  | error e => simp at hbehind
  | ok u =>
      simp only [Prod.mk.injEq, Except.ok.injEq] at hbehind
      simp [hbehind]

/-- Clauses are read one by one, but `PRIMARY` and a `KEY` right behind it as one. What was read
says the same of every column. -/
theorem gather_clauses {clauses : List ColumnClause} {pieces : List (List Token)} (name : Text)
    (h : List.Forall₂ IsClause clauses pieces)
    (hapart : pieces.IsChain fun piece next => IsBare "UNIQUE" piece → ¬ IsBare "KEY" next) :
    ∃ said, Yields (gather (columnClause name)) pieces.flatten said [] ∧
      ∀ column : Column, said.foldl Column.set column = clauses.foldl Column.set column := by
  -- the step at `PRIMARY` may pass two clauses, so the tail is carried along
  suffices hboth : ∀ {clauses pieces}, List.Forall₂ IsClause clauses pieces →
      pieces.IsChain (fun piece next => IsBare "UNIQUE" piece → ¬ IsBare "KEY" next) →
      (∃ said, Yields (gather (columnClause name)) pieces.flatten said [] ∧
        ∀ column : Column, said.foldl Column.set column = clauses.foldl Column.set column) ∧
      ∃ said, Yields (gather (columnClause name)) pieces.tail.flatten said [] ∧
        ∀ column : Column, said.foldl Column.set column = clauses.tail.foldl Column.set column from
    (hboth h hapart).1
  intro clauses pieces h hapart
  induction h with
  | nil => exact ⟨⟨[], gather_nil, fun _ => rfl⟩, ⟨[], gather_nil, fun _ => rfl⟩⟩
  | @cons clause piece clauses pieces hclause hrest ih =>
      obtain ⟨⟨said, hsaid, hfold⟩, said', hsaid', hfold'⟩ := ih (List.isChain_cons.1 hapart).2
      refine ⟨?_, said, hsaid, hfold⟩
      by_cases hkey : IsBare "PRIMARY" piece ∧
          ∃ t ∈ pieces.flatten.head?, t.isWord ["KEY"] = true
      · obtain ⟨⟨first, rfl, hfirst⟩, second, hsecond, hword⟩ := hkey
        obtain ⟨-, clause', clauses', piece', pieces', rfl, rfl, hclause', hhead⟩ :=
          exists_head_flatten hrest hsecond
        obtain ⟨rfl, -⟩ := hclause.primaryKey_of_head (t := first) rfl
          (Token.isWord_of_subset hfirst (by decide))
        obtain ⟨rfl, hone⟩ := hclause'.primaryKey_of_head hhead
          (Token.isWord_of_subset hword (by decide))
        obtain rfl := hone hword
        refine ⟨.primaryKey :: said', ?_, fun column => ?_⟩
        · have hstep : Yields (columnClause name) [first, second] .primaryKey pieces'.flatten :=
            clause name (.primaryKey hfirst hword)
              (fun t ht => (exists_head_flatten (List.forall₂_cons.1 hrest).2 ht).1)
              (fun hbare => by simp [IsBare] at hbare)
          have hgather := gather_cons (by simp) hstep hsaid'
          exact hgather
        · rw [List.foldl_cons, hfold']
          rfl
      · refine ⟨clause :: said, ?_, fun column => ?_⟩
        · refine gather_cons (by obtain ⟨t, more, rfl, -⟩ := hclause.head; simp) ?_ hsaid
          refine Yields.clause name hclause (fun t ht => (exists_head_flatten hrest ht).1) ?_
          intro hbare t ht
          rw [← Bool.not_eq_true]
          intro hword
          rcases hbare with hbare | hbare
          · exact hkey ⟨hbare, t, ht, hword⟩
          · obtain ⟨-, _, _, next, _, -, rfl, hnext, hhead⟩ := exists_head_flatten hrest ht
            have hone := (hnext.primaryKey_of_head hhead
              (Token.isWord_of_subset hword (by decide))).2 hword
            exact (List.isChain_cons_cons.1 hapart).1 hbare ⟨t, hone, hword⟩
        · rw [List.foldl_cons, List.foldl_cons, hfold]

theorem skipModifiers (h : ∀ m ∈ piece, m.isWord typeModifiers = true)
    (hrest : ∀ t ∈ rest.head?, t.isWord typeModifiers = false) :
    Yields columnType.skipModifiers piece () rest := by
  have htake : (piece ++ rest).takeWhile (fun t => t.isWord typeModifiers) = piece := by
    rw [List.takeWhile_append_of_pos h]
    cases rest with
    | nil => simp
    | cons t rest => simp [hrest t rfl]
  intro passed
  rw [columnType.skipModifiers]
  dsimp only
  rw [htake, Cursor.skip]
  dsimp only
  rw [List.take_left, List.drop_left]

section Typed

variable {types : Fields Text} {base target : Text} {arguments modifiers : List Token}

/-- What is read of a type behind its name. -/
theorem behindType (first : Token) (harguments : IsArguments arguments)
    (hmodifiers : ∀ m ∈ modifiers, m.isWord typeModifiers = true)
    (htarget : mapType types base = .ok target)
    (hrest : ∀ t ∈ rest.head?, t.isWord clauseWords = true) (passed : List Token) :
    (do
      Reading.skipGroup
      columnType.skipModifiers
      let target ← lift (mapType types base)
      return ⟨target, first, ← lastPassed first⟩ : Reading TypeSpan)
        ⟨passed, arguments ++ (modifiers ++ rest)⟩ =
      (.ok ⟨target, first, (modifiers.reverse ++ (arguments.reverse ++ passed)).head?.getD first⟩,
        ⟨modifiers.reverse ++ (arguments.reverse ++ passed), rest⟩) := by
  have hclause : ∀ t ∈ rest.head?, t.isWord typeModifiers = false := fun t ht =>
    Token.isWord_of_disjoint (hrest t ht) (by decide)
  have hopen : ∀ t ∈ (modifiers ++ rest).head?, t.isPunct "(" = false := by
    cases modifiers with
    | nil => exact fun t ht => Token.not_isPunct_of_isWord (hrest t ht) "("
    | cons m modifiers => simpa using Token.not_isPunct_of_isWord (hmodifiers m (by simp)) "("
  rw [bind_of_ok (skipGroup harguments hopen passed),
    bind_of_ok (skipModifiers hmodifiers hclause _), htarget]
  rfl

/-- A type is read with its arguments and modifiers, and its span keeps the first and the last
token. -/
theorem typed (h : IsType base piece) (htarget : mapType types base = .ok target)
    (hrest : ∀ t ∈ rest.head?, t.isWord clauseWords = true) :
    ∃ first last, piece.head? = some first ∧ piece.getLast? = some last ∧
      Yields (Reading.columnType types) piece ⟨target, first, last⟩ rest := by
  have hne : piece ≠ [] := by
    cases h with
    | word => exact List.cons_ne_nil _ _
    | precise => exact List.cons_ne_nil _ _
  obtain ⟨last, hlast⟩ : ∃ last, piece.getLast? = some last :=
    ⟨_, List.getLast?_eq_some_getLast hne⟩
  have hhead : ∀ passed, (piece.reverse ++ passed).head? = some last := by
    intro passed
    rw [List.head?_append, List.head?_reverse, hlast, Option.some_or]
  cases h with
  | @word t arguments modifiers hbare harguments hmodifiers =>
      refine ⟨t, last, rfl, hlast, fun passed => ?_⟩
      have hbehind := behindType t harguments hmodifiers htarget hrest (t :: passed)
      have hpassed : modifiers.reverse ++ (arguments.reverse ++ (t :: passed)) =
          (t :: (arguments ++ modifiers)).reverse ++ passed := by simp
      rw [hpassed, hhead passed, Option.getD_some] at hbehind
      have hprecise : ∀ u ∈ (arguments ++ (modifiers ++ rest)).head?,
          u.isWord ["PRECISION"] = false := by
        rcases harguments with rfl | ⟨inner, opening, closing, rfl, hopen, -⟩
        · cases modifiers with
          | nil => exact fun u hu => Token.isWord_of_disjoint (hrest u hu) (by decide)
          | cons m modifiers =>
              simpa using Token.isWord_of_disjoint (hmodifiers m (by simp)) (by decide)
        · simpa using Token.not_isWord_of_isPunct hopen ["PRECISION"]
      rw [List.cons_append, List.append_assoc]
      refine (bind_of_ok (advance passed) _).trans ?_
      rw [if_neg (by simp [hbare])]
      -- a second word is looked for behind `DOUBLE` only, and none is there
      split
      · exact (bind_of_ok (decline hprecise _) _).trans hbehind
      · exact hbehind
  | @precise first second arguments modifiers hfirst hsecond harguments hmodifiers =>
      refine ⟨first, last, rfl, hlast, fun passed => ?_⟩
      have hbehind := behindType first harguments hmodifiers htarget hrest
        (second :: first :: passed)
      have hpassed : modifiers.reverse ++ (arguments.reverse ++ (second :: first :: passed)) =
          (first :: second :: (arguments ++ modifiers)).reverse ++ passed := by simp
      rw [hpassed, hhead passed, Option.getD_some] at hbehind
      rw [List.cons_append, List.cons_append, List.append_assoc]
      refine (bind_of_ok (advance passed) _).trans ?_
      rw [if_neg (by simp [(Token.isWord_iff.1 hfirst).1]), if_pos hfirst]
      exact (bind_of_ok (accept hsecond _) _).trans hbehind

end Typed

end Reading.Yields

/-- The tokens do not end in a semicolon. -/
def Unterminated (tokens : List Token) : Prop :=
  ∀ t ∈ tokens.getLast?, t.isPunct ";" = false

namespace Unterminated

variable {piece more : List Token} {t : Token}

theorem withoutSemicolon_eq (h : Unterminated piece) : Cursor.withoutSemicolon piece = piece := by
  unfold Cursor.withoutSemicolon
  split
  · next t hlast => exact if_neg (ne_true_of_eq_false (h t hlast))
  · rfl

theorem nil : Unterminated [] := by
  simp [Unterminated]

theorem concat (h : t.isPunct ";" = false) : Unterminated (piece ++ [t]) := by
  simpa [Unterminated] using h

theorem append (h : Unterminated piece) (hmore : Unterminated more) :
    Unterminated (piece ++ more) := by
  intro t ht
  rw [List.getLast?_append] at ht
  cases hlast : more.getLast? with
  | none => exact h t (by simpa [hlast] using ht)
  | some u => exact hmore t (by simpa [hlast] using ht)

theorem cons (h : Unterminated [t]) (hmore : Unterminated more) : Unterminated (t :: more) :=
  append h hmore

theorem one (h : t.kind ≠ .punctuation) : Unterminated [t] := by
  simp [Unterminated, Token.isPunct, h]

theorem bare (h : t.kind.isBare = true) : Unterminated [t] := by
  refine one ?_
  intro hkind
  simp [hkind, TokenKind.isBare] at h

theorem word {words : List Text} (h : t.isWord words = true) : Unterminated [t] :=
  bare (Token.isWord_iff.1 h).1

theorem sign {text : Text} (h : t.isOperator text = true) : Unterminated [t] := by
  simp only [Token.isOperator, Bool.and_eq_true, beq_iff_eq] at h
  exact one (by simp [h.1])

theorem group {inner : List Token} (h : IsGroup inner piece) : Unterminated piece := by
  obtain ⟨opening, closing, rfl, -, hclose, -⟩ := h
  exact concat (not_isPunct_of_isPunct hclose (by decide))

theorem arguments (h : IsArguments piece) : Unterminated piece := by
  rcases h with rfl | ⟨inner, hgroup⟩
  · exact nil
  · exact group hgroup

end Unterminated

section Last

variable {clause : ColumnClause} {value base : Text} {piece more : List Token} {t : Token}

theorem IsDefault.unterminated (h : IsDefault value piece) : Unterminated piece := by
  cases h with
  | string hkind => exact .one (by simp [hkind])
  | number hkind => exact .one (by simp [hkind])
  | signed hsign hnumber =>
      refine .cons ?_ (.one (by simp [hnumber]))
      rcases Bool.or_eq_true_iff.1 hsign with hsign | hsign
      · exact .sign hsign
      · exact .sign hsign
  | expression hgroup => exact .group hgroup
  | constant hword => exact .word hword
  | currentTime htime harguments =>
      exact .cons (.bare (Option.ite_none_right_eq_some.1 htime).1) (.arguments harguments)
  | bits hword hstring _ _ => exact .cons (.word hword) (.one (by simp [hstring]))
  | bytes hword hstring _ => exact .cons (.word hword) (.one (by simp [hstring]))

theorem IsClause.unterminated (h : IsClause clause piece) : Unterminated piece := by
  cases h with
  | notNull hfirst hsecond => exact .cons (.word hfirst) (.word hsecond)
  | null hword => exact .word hword
  | default hword hvalue => exact .cons (.word hword) hvalue.unterminated
  | autoIncrement hword => exact .word hword
  | primary hword => exact .word hword
  | primaryKey hfirst hsecond => exact .cons (.word hfirst) (.word hsecond)
  | key hword => exact .word hword
  | unique hword => exact .word hword
  | uniqueKey hfirst hsecond => exact .cons (.word hfirst) (.word hsecond)
  | comment hword hliteral => exact .cons (.word hword) (.one (by simp [hliteral]))
  | characterSet hwords hsign hname =>
      refine .append ?_ (.append ?_ (.bare hname))
      · rcases hwords with ⟨first, second, rfl, hfirst, hsecond⟩ | ⟨word, rfl, hword⟩
        · exact .cons (.word hfirst) (.word hsecond)
        · exact .word hword
      · rcases hsign with rfl | ⟨t, rfl, ht⟩
        · exact .nil
        · exact .sign ht
  | onUpdate hfirst hsecond hvalue harguments =>
      exact .cons (.word hfirst) (.cons (.word hsecond) (.cons (.bare hvalue)
        (.arguments harguments)))

theorem IsType.unterminated (h : IsType base piece) : Unterminated piece := by
  have hmodifiers : ∀ {modifiers : List Token},
      (∀ m ∈ modifiers, m.isWord Reading.typeModifiers = true) → Unterminated modifiers :=
    fun h t ht => Token.not_isPunct_of_isWord (h t (List.mem_of_getLast? ht)) ";"
  cases h with
  | word hbare harguments hall =>
      exact .cons (.bare hbare) (.append (.arguments harguments) (hmodifiers hall))
  | precise hfirst hsecond harguments hall =>
      exact .cons (.word hfirst) (.cons (.word hsecond)
        (.append (.arguments harguments) (hmodifiers hall)))

theorem unterminated_flatten {clauses : List ColumnClause} {pieces : List (List Token)}
    (h : List.Forall₂ IsClause clauses pieces) : Unterminated pieces.flatten := by
  induction h with
  | nil => exact .nil
  | cons hclause _ ih => exact .append hclause.unterminated ih

end Last

end Restate
