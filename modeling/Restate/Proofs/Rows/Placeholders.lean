import Restate.Proofs.Rows.Marks
import Restate.Proofs.Sqlite.Starts
import Restate.Proofs.Text.Numbered

/-!
# Placeholders of a restated statement

The placeholders that SQLite reads in a restated statement are those of the statement itself and
those that stand for its literals, unless one of them goes on in what is written behind it (a
literal ends with its quote, and a placeholder with its last word character) or SQLite's comments
are not the statement's. Main statement: `restate_placeholders_iff`.
-/

namespace Restate

open Text Sqlite

namespace Rows

/-- No placeholder has a word character behind it. -/
def PlaceholdersEnd (parts : List Part) : Prop :=
  Along (fun p rest => p.role = .placeholder → rest.head?.all (!isWordChar ·) = true) parts

/-- What is no placeholder is read as it is meant: nothing runs into what is written behind it, and
no comment begins with a hash. -/
def OthersHold (parts : List Part) : Prop :=
  Along (fun p rest => p.role ≠ .placeholder → runsInto apart p.text rest = false) parts ∧
    ∀ p ∈ parts, p.role = .comment → p.text.head? ≠ some '#'

instance (parts : List Part) : Decidable (PlaceholdersEnd parts) :=
  inferInstanceAs (Decidable (Along _ parts))

instance (parts : List Part) : Decidable (OthersHold parts) :=
  inferInstanceAs (Decidable (_ ∧ _))

/-- For each character of the parts, the name of the placeholder that is meant to begin there. -/
def starts (parts : List Part) : List (Option Text) :=
  parts.flatMap fun p => atFirst p.name? p.text

/-- A placeholder stands outside quoted spans and comments, and it ends before what is written
behind it. In any other part no colon out there has a word character behind it. -/
def Part.Stands (before : Text) (p : Part) (after : Text) : Prop :=
  if p.role = .placeholder then Outside before ∧ after.head?.all (!isWordChar ·) = true
  else ∀ s r, p.text = s ++ ':' :: r → Outside (before ++ s) →
    (r ++ after).head?.all (!isWordChar ·) = true

/-- Each part stands where it is written. -/
def Stand (before : Text) : List Part → Prop
  | [] => True
  | p :: parts => p.Stands before (written parts) ∧ Stand (before ++ p.text) parts

variable {parts : List Part} {p : Part} {before after : Text}

theorem Part.Sound.silent (h : p.Sound) (hrole : p.role ≠ .placeholder)
    (hhash : p.role = .comment → p.text.head? ≠ some '#') : Silent p.text := by
  obtain ⟨role, text⟩ := p
  cases role with
  | placeholder => exact (hrole rfl).elim
  | comment => exact h.resolve_left (hhash rfl)
  | code => exact h

/-- A name takes nothing from what is written behind it just if no word character is there. -/
theorem append_takeWhile_eq_left (name rest : Text) :
    name ++ rest.takeWhile isWordChar = name ↔ rest.head?.all (!isWordChar ·) = true := by
  rw [List.append_right_eq_self]
  cases rest with
  | nil => simp
  | cons c rest => simp [List.takeWhile_cons]

section Stand

theorem nameAt_eq_none_iff {c : Char} :
    nameAt before c after = none ↔
      (c = ':' → Outside before → after.head?.all (!isWordChar ·) = true) := by
  have hhead : after.head?.any isWordChar = true ↔ ¬ after.head?.all (!isWordChar ·) = true := by
    cases after with
    | nil => simp
    | cons d after => simp
  rw [nameAt, ite_eq_right_iff, hhead]
  simp

/-- No placeholder begins in a text just if no colon outside spans and comments has a word character
behind it. -/
theorem namesAt_eq_none_iff {s : Text} :
    namesAt before s after = List.replicate s.length none ↔
      ∀ t r, s = t ++ ':' :: r → Outside (before ++ t) →
        (r ++ after).head?.all (!isWordChar ·) = true := by
  rw [namesAt_eq, marksIn_eq_none_iff]
  simp only [← nameAt_eq, nameAt_eq_none_iff]
  constructor
  · intro h t r heq
    exact h t ':' r heq rfl
  · rintro h t c r heq rfl
    exact h t r heq

theorem namesAt_of_no_colon {s : Text} (h : ':' ∉ s) :
    namesAt before s after = List.replicate s.length none := by
  apply namesAt_eq_none_iff.2
  rintro t r rfl -
  simp at h

/-- SQLite finds the placeholder that a part is, and no other in it, just if the part stands. -/
theorem Part.Sound.namesAt_iff (h : p.Sound) :
    namesAt before p.text after = atFirst p.name? p.text ↔ p.Stands before after := by
  by_cases hrole : p.role = .placeholder
  · obtain ⟨name, htext, hne, hword⟩ : ∃ name, p.text = ':' :: name ∧ name ≠ [] ∧
        ∀ c ∈ name, isWordChar c = true := by
      unfold Part.Sound at h
      rwa [hrole] at h
    have hcolon : ':' ∉ name := by
      intro hmem
      have := hword _ hmem
      revert this
      decide
    have hname : p.name? = some name := by simp [Part.name?, hrole, htext]
    have hhead : (name ++ after).head?.any isWordChar = true := by
      obtain ⟨c, name, rfl⟩ := List.exists_cons_of_ne_nil hne
      simpa using hword c (by simp)
    rw [Part.Stands, if_pos hrole, hname, htext, namesAt, atFirst, namesAt_of_no_colon hcolon,
      List.cons.injEq, and_iff_left rfl, nameAt, List.takeWhile_append_of_pos hword,
      ← append_takeWhile_eq_left name after]
    by_cases houtside : Outside before
    · rw [if_pos ⟨rfl, houtside, hhead⟩, Option.some.injEq, and_iff_right houtside]
    · simp [houtside]
  · rw [Part.Stands, if_neg hrole, Part.name?_eq_none hrole, atFirst_none, namesAt_eq_none_iff]

theorem stand_iff : Stand before parts ↔ Throughout Part.Stands before parts := by
  induction parts generalizing before with
  | nil => exact Iff.rfl
  | cons p parts ih => rw [Stand, Throughout, ih]

/-- Placeholders begin where they are meant to just if each part stands. -/
theorem starts_written_iff (hsound : ∀ p ∈ parts, p.Sound) :
    Sqlite.starts (written parts) = starts parts ↔ Stand [] parts := by
  have hstands : ∀ p ∈ parts, ∀ before after,
      marksIn Lexeme.name? before p.text after = atFirst p.name? p.text ↔
        p.Stands before after := by
    intro p hp before after
    rw [← namesAt_eq]
    exact (hsound p hp).namesAt_iff
  rw [stand_iff]
  exact marks_written_iff (fun p _ => length_atFirst p.name? p.text) hstands

/-- The placeholders that are meant to begin in the parts are theirs. -/
theorem filterMap_starts (hsound : ∀ p ∈ parts, p.Sound) :
    (starts parts).filterMap id = names parts := by
  apply filterMap_flatMap_atFirst
  intro p hp hnil
  exact (hsound p hp).name?_blank (by simp [hnil])

end Stand

/-- Where everything else is read as it is meant, the placeholders are just if each of them ends. -/
theorem placeholders_written_iff (hsound : ∀ p ∈ parts, p.Sound) (hothers : OthersHold parts) :
    placeholders (written parts) = names parts ↔ PlaceholdersEnd parts := by
  obtain ⟨halong, hhash⟩ := hothers
  induction parts with
  | nil => exact iff_of_true rfl trivial
  | cons p parts ih =>
      obtain ⟨hp, hparts⟩ := List.forall_mem_cons.1 hsound
      obtain ⟨hphash, hhash⟩ := List.forall_mem_cons.1 hhash
      obtain ⟨hrun, halong⟩ := halong
      have ih := ih hparts halong hhash
      rw [written_cons]
      by_cases hrole : p.role = .placeholder
      · have hnames : names (p :: parts) = p.text.tail :: names parts := by
          simp [names, Part.name?, hrole]
        obtain ⟨name, htext, hne, hword⟩ : ∃ name, p.text = ':' :: name ∧ name ≠ [] ∧
            ∀ c ∈ name, isWordChar c = true := by
          unfold Part.Sound at hp
          rwa [hrole] at hp
        -- the placeholder is read as its name just if no word character follows
        rw [hnames, htext, placeholders_name hne hword, List.tail_cons, List.cons.injEq, ih,
          append_takeWhile_eq_left]
        constructor
        · rintro ⟨h, hrest⟩
          exact ⟨fun _ => h, hrest⟩
        · rintro ⟨h, hrest⟩
          exact ⟨h hrole, hrest⟩
      · have hnames : names (p :: parts) = names parts := by
          simp [names, Part.name?, hrole]
        have hsilent : placeholders p.text = [] := hp.silent hrole hphash
        rw [hnames, placeholders_append (hrun hrole), hsilent, List.nil_append, ih]
        constructor
        · intro h
          exact ⟨fun h' => (hrole h').elim, h⟩
        · rintro ⟨-, h⟩
          exact h

/-- A token the lexer reads becomes a sound part, if it is no literal. -/
theorem sound_of_isRead {t : Token} (h : t.IsRead) (hstring : t.kind ≠ .string) :
    t.part.Sound := by
  by_cases hplaceholder : t.kind = .placeholder
  · have hplain : plainPiece t = t.text := by simp [plainPiece, hplaceholder]
    rcases h.placeholder hplaceholder with htext | ⟨name, htext, hne, hword⟩
    · have hname : t.name? = none := by simp [Token.name?, htext]
      have hsilent : Silent ['?'] := by decide
      simpa [Part.Sound, Token.part, hname, hplaceholder, hplain, htext] using hsilent
    · have hname : t.name? = some name := by simp [Token.name?, hplaceholder, htext]
      simpa [Part.Sound, Token.part, hname, hplain, htext] using ⟨hne, hword⟩
  · have hname := name?_of_kind hplaceholder
    by_cases hcomment : t.kind = .comment
    · have hplain : plainPiece t = t.text := by simp [plainPiece, hcomment]
      simp only [Part.Sound, Token.part, hname, hcomment]
      by_cases hhash : t.text.head? = some '#'
      · exact .inl (hplain ▸ hhash)
      · exact .inr (h.silent hplaceholder hstring fun _ => hhash)
    · simp only [Part.Sound, Token.part, hname, hcomment]
      exact h.silent hplaceholder hstring fun h => (hcomment h).elim

theorem sound_of_silent {t : Token} (hplaceholder : t.kind ≠ .placeholder)
    (hcomment : t.kind ≠ .comment) (h : Silent (plainPiece t)) : t.part.Sound := by
  simpa [Part.Sound, Token.part, name?_of_kind hplaceholder, hcomment] using h

theorem sound_of_bare {t : Token} (hbare : t.kind.isBare = true) (h : Silent t.text) :
    t.part.Sound := by
  have hkind : t.kind ≠ .placeholder ∧ t.kind ≠ .comment ∧ t.kind ≠ .quotedIdentifier := by
    refine ⟨?_, ?_, ?_⟩ <;> rintro hkind <;> simp [hkind, TokenKind.isBare] at hbare
  refine sound_of_silent hkind.1 hkind.2.1 ?_
  rwa [plainPiece, if_neg hkind.2.2]

theorem isWordChar_of_isDigit {c : Char} (h : c.isDigit = true) : isWordChar c = true := by
  simp [isWordChar, isAlnum, toNat_lt_of_isDigit h, Char.isAlphanum, h]

/-- A number in bits is written with digits and a sign. -/
theorem silent_bitNumeral {digits text : Text} (h : bitNumeral digits = .ok text) :
    Silent text := by
  have hdigits : ∀ n : Nat, ':' ∉ numeral n := by
    intro n hmem
    have := isDigit_of_mem_numeral hmem
    revert this
    decide
  unfold bitNumeral at h
  cases hinteger : Numeral.integer 2 (if digits.isEmpty then ['0'] else digits) with
  | error fault =>
      rw [hinteger] at h
      cases h
  | ok n =>
      rw [hinteger] at h
      change Numeral.written n = .ok text at h
      unfold Numeral.written at h
      split at h
      · simp at h
      · cases h
        apply silent_of_no_colon
        unfold signedNumeral
        split
        · simp [hdigits]
        · exact hdigits _

end Rows

namespace Parameter.Binds

open Rows

variable {naming : Naming} {p : Option Token} {ts : List Token} {n : Nat} {bound : Bound}

/-- The tokens that are left when literals are bound become sound parts. -/
theorem sound (h : Binds naming n p ts bound) (hne : naming.stem ≠ [])
    (hstem : ∀ c ∈ naming.stem, isWordChar c = true) (hread : ∀ t ∈ ts, t.IsRead) :
    ∀ t ∈ bound.tokens, t.part.Sound := by
  have hname : ∀ k start stop,
      (Token.part ⟨.placeholder, ':' :: naming.name k, start, stop⟩).Sound := by
    intro k start stop
    refine ⟨naming.name k, rfl, by simp [Naming.name, hne], ?_⟩
    intro c hc
    rcases List.mem_append.1 hc with hc | hc
    · exact hstem c hc
    · exact isWordChar_of_isDigit (isDigit_of_mem_numeral hc)
  induction h with
  | nil => simp
  | keep hstring _ ih =>
      obtain ⟨ht, hread⟩ := List.forall_mem_cons.1 hread
      exact List.forall_mem_cons.2 ⟨sound_of_isRead ht hstring, ih hread⟩
  | literal _ _ _ ih =>
      obtain ⟨-, hread⟩ := List.forall_mem_cons.1 hread
      exact List.forall_mem_cons.2 ⟨hname _ _ _, ih hread⟩
  | charset _ _ _ ih =>
      obtain ⟨-, hread⟩ := List.forall_mem_cons.1 hread
      obtain ⟨-, hread⟩ := List.forall_mem_cons.1 hread
      exact List.forall_mem_cons.2 ⟨hname _ _ _, ih hread⟩
  | @bytes n p t u ts bound _ hbefore _ ih =>
      obtain ⟨-, hread⟩ := List.forall_mem_cons.1 hread
      obtain ⟨-, hread⟩ := List.forall_mem_cons.1 hread
      have hbare := Introducer.bare_of_before hbefore
      have hu := Introducer.kind_of_before hbefore
      refine List.forall_mem_cons.2 ⟨?_, List.forall_mem_cons.2 ⟨?_, ih hread⟩⟩
      · exact sound_of_bare hbare (show Silent ['X'] by decide)
      · refine sound_of_silent (by simp [hu]) (by simp [hu]) ?_
        simpa [plainPiece, hu] using silent_quoteString u.value
  | bits _ _ hbits _ ih =>
      obtain ⟨-, hread⟩ := List.forall_mem_cons.1 hread
      obtain ⟨-, hread⟩ := List.forall_mem_cons.1 hread
      refine List.forall_mem_cons.2 ⟨?_, ih hread⟩
      exact sound_of_silent (by simp) (by simp) (silent_bitNumeral hbits)

end Parameter.Binds

namespace Rows

theorem changeSignificant_split (change : Token → Token) {n : Nat} {tokens : List Token} {t : Token}
    (h : (significant tokens)[n]? = some t) :
    ∃ before after, tokens = before ++ t :: after ∧
      changeSignificant change n tokens = before ++ change t :: after := by
  induction tokens generalizing n with
  | nil => simp [significant] at h
  | cons u tokens ih =>
      rw [changeSignificant.eq_def]
      cases hu : u.isTrivia with
      | true =>
          have hrest : (significant tokens)[n]? = some t := by simpa [significant, hu] using h
          obtain ⟨before, after, htokens, hchange⟩ := ih hrest
          exact ⟨u :: before, after, by simp [htokens], by simp [hu, hchange]⟩
      | false =>
          have hcons : significant (u :: tokens) = u :: significant tokens := by
            simp [significant, hu]
          rw [hcons] at h
          cases n with
          | zero =>
              obtain rfl : u = t := by simpa using h
              exact ⟨[], tokens, rfl, by simp [hu]⟩
          | succ n =>
              obtain ⟨before, after, htokens, hchange⟩ := ih (by simpa using h)
              exact ⟨u :: before, after, by simp [htokens], by simp [hu, hchange]⟩

/-- One word at most is written in another way. -/
theorem orIgnore_cases (kind : StatementKind) (tokens : List Token) :
    orIgnore kind tokens = tokens ∨
      ∃ before t after, t.kind.isBare = true ∧ tokens = before ++ t :: after ∧
        orIgnore kind tokens = before ++ { t with text := "OR IGNORE" } :: after := by
  unfold orIgnore
  split
  · next second hsecond =>
      split
      · next hword =>
          obtain ⟨before, after, htokens, hchange⟩ := changeSignificant_split
            (fun t => { t with text := "OR IGNORE" }) hsecond
          exact .inr ⟨before, second, after, (Bool.and_eq_true_iff.1 hword).1, htokens, hchange⟩
      · exact .inl rfl
  · exact .inl rfl

/-- `IGNORE` becomes a sound part, and no placeholder is lost. -/
theorem sound_orIgnore (kind : StatementKind) {tokens : List Token}
    (h : ∀ t ∈ tokens, t.part.Sound) :
    (∀ t ∈ orIgnore kind tokens, t.part.Sound) ∧
      (orIgnore kind tokens).filterMap Token.name? = tokens.filterMap Token.name? := by
  rcases orIgnore_cases kind tokens with heq | ⟨before, t, after, hbare, htokens, heq⟩
  · rw [heq]
    exact ⟨h, rfl⟩
  · have hname : Token.name? { t with text := "OR IGNORE" } = none := name?_of_bare hbare
    have hsound : (Token.part { t with text := "OR IGNORE" }).Sound :=
      sound_of_bare hbare (show Silent "OR IGNORE" by decide)
    rw [heq]
    rw [htokens, List.forall_mem_append, List.forall_mem_cons] at h
    constructor
    · exact List.forall_mem_append.2 ⟨h.1, List.forall_mem_cons.2 ⟨hsound, h.2.2⟩⟩
    · rw [htokens, List.filterMap_append, List.filterMap_append, filterMap_cons_toList,
        filterMap_cons_toList, hname, name?_of_bare hbare]

/-- What the built-in settings say of placeholders and calls. -/
theorem builtIn_silent {settings : Settings} (h : Settings.load .builtIn = .ok settings) :
    settings.placeholderStem.inserted = "param".toList ∧
      ∀ name rule, settings.functions.get? name = some rule → rule.isSilent = true := by
  have htest : passes (fun settings => settings.placeholderStem.inserted == "param".toList
      && settings.functions.all (·.2.isSilent)) (Settings.load .builtIn) = true := by
    decide +kernel
  rw [h, passes, Bool.and_eq_true, beq_iff_eq, List.all_eq_true] at htest
  refine ⟨htest.1, ?_⟩
  intro name rule hget
  obtain ⟨before, after, hsplit⟩ := List.lookup_eq_some_iff.1 hget
  exact htest.2 (name, rule) (by simp [hsplit])

end Rows

/-- A statement on rows becomes one query, whose text is that of its parts. Before they are made,
each literal that is not marked gives way to a placeholder with a name of its own, bound to what the
literal holds. The parts have the placeholders that are not lost with the arguments of a replaced
call. SQLite finds these in their places, and no others, just if each part stands there. Where
everything else is read as it is meant, it finds these just if none of them has a word character
behind it. -/
theorem restate_placeholders_iff {settings : Settings} {tablePrefix sql : Text} {r : Restatement}
    {kind : StatementKind} (hload : Settings.load .builtIn = .ok settings)
    (hrestate : (restate settings tablePrefix sql).outcome = .ok r) (hkind : r.kind = some kind)
    (hrow : kind ∈ StatementKind.onRows) :
    ∃ tokens bound parts, tokenize sql = .ok tokens ∧
      Parameter.extract "param" tokens = .ok bound ∧
      parts = Rows.partsOf settings.functions (orIgnore kind bound.tokens) ∧
      r.queries = [⟨.sql (Rows.written parts), bound.params⟩] ∧
      bound.params.map Prod.snd = (freeLiterals none tokens).map Token.value ∧
      bound.params.keys.Nodup ∧
      (∀ key ∈ bound.params.keys, key ∉ tokens.filterMap Token.name?) ∧
      (orIgnore kind bound.tokens).filterMap Token.name? = placed none bound.params.keys tokens ∧
      (Rows.starts parts).filterMap id =
        (Rows.remaining settings.functions (orIgnore kind bound.tokens)).filterMap Token.name? ∧
      (Sqlite.starts (Rows.written parts) = Rows.starts parts ↔ Rows.Stand [] parts) ∧
      (Rows.OthersHold parts →
        (Sqlite.placeholders (Rows.written parts) =
            (Rows.remaining settings.functions (orIgnore kind bound.tokens)).filterMap Token.name? ↔
          Rows.PlaceholdersEnd parts)) := by
  obtain ⟨tokens, bound, text, htokens, hbound, htext, hqueries⟩ :=
    restate_rows_ok hrestate hkind hrow
  obtain ⟨hstem, hrules⟩ := Rows.builtIn_silent hload
  obtain ⟨-, -, hread⟩ := tiles_of_tokenize htokens
  rw [hstem] at hbound
  have hbinds := Parameter.binds_of_extract hbound
  obtain ⟨hnodup, hfresh⟩ := hbinds.keys_fresh
  -- soundness is carried from the tokens read to those left by binding, and on to the parts
  have hsound := hbinds.sound (show "param".toList ≠ [] by decide)
    (List.all_eq_true.1 (show "param".toList.all isWordChar = true by decide)) hread
  obtain ⟨hsound, hnames⟩ := Rows.sound_orIgnore kind hsound
  obtain ⟨hparts, hleft⟩ := Rows.sound_partsOf hrules hsound
  refine ⟨tokens, bound, _, htokens, hbound, rfl, ?_, hbinds.values, hnodup, hfresh, ?_, ?_,
    Rows.starts_written_iff hparts, ?_⟩
  · rw [hqueries, Rows.written_partsOf htext]
  · rw [hnames, hbinds.names]
  · rw [Rows.filterMap_starts hparts, hleft]
  · intro hothers
    rw [← Rows.placeholders_written_iff hparts hothers, hleft]

/-- With a blank behind its literal, the placeholder of a query is read as its own. -/
theorem restate_placeholders_of_blank :
    ∃ settings r tokens bound parts, Settings.load .builtIn = .ok settings ∧
      (restate settings [] "SELECT 'a' AS b, :id").outcome = .ok r ∧ r.kind = some .select ∧
      tokenize "SELECT 'a' AS b, :id" = .ok tokens ∧
      Parameter.extract "param" tokens = .ok bound ∧
      r.queries = [⟨.sql (Rows.written parts), bound.params⟩] ∧ Rows.OthersHold parts ∧
      Sqlite.placeholders (Rows.written parts) =
        (Rows.remaining settings.functions (orIgnore .select bound.tokens)).filterMap
          Token.name? := by
  obtain ⟨settings, hload, h⟩ := exists_of_passes (show passes (fun settings =>
      passes (fun r => r.kind == some .select) (restate settings [] "SELECT 'a' AS b, :id").outcome
        && passes (fun tokens => passes (fun bound => decide
          (Rows.OthersHold (Rows.partsOf settings.functions (orIgnore .select bound.tokens)) ∧
            Rows.PlaceholdersEnd
              (Rows.partsOf settings.functions (orIgnore .select bound.tokens))))
          (Parameter.extract "param" tokens)) (tokenize "SELECT 'a' AS b, :id"))
      (Settings.load .builtIn) = true by decide +kernel)
  obtain ⟨hrestate, h⟩ := Bool.and_eq_true_iff.1 h
  obtain ⟨r, hrestate, hkind⟩ := exists_of_passes hrestate
  have hkind := eq_of_beq hkind
  obtain ⟨tokens, bound, parts, htokens, hbound, hparts, hqueries, -, -, -, -, -, -, hiff⟩ :=
    restate_placeholders_iff hload hrestate hkind (by decide)
  rw [htokens, passes, hbound, passes, ← hparts, decide_eq_true_iff] at h
  exact ⟨settings, r, tokens, bound, parts, hload, hrestate, hkind, htokens, hbound, hqueries, h.1,
    (hiff h.1).2 h.2⟩

/-- A word that touches the end of a literal is read as the end of its placeholder, to which nothing
is bound. -/
theorem restate_placeholder_runs_on :
    ∃ settings r query, Settings.load .builtIn = .ok settings ∧
      (restate settings [] "SELECT * FROM t WHERE a = 'x'AND b = 1").outcome = .ok r ∧
      r.kind = some .select ∧ r.queries = [query] ∧ query.params.keys = ["param0".toList] ∧
      Sqlite.placeholders query.command.text = ["param0AND".toList] := by
  obtain ⟨settings, hload, h⟩ := exists_of_passes (show passes (fun settings => passes (fun r =>
      decide (r.kind = some .select ∧ r.queries.length = 1 ∧
        ∀ query ∈ r.queries, query.params.keys = ["param0".toList] ∧
          Sqlite.placeholders query.command.text = ["param0AND".toList]))
        (restate settings [] "SELECT * FROM t WHERE a = 'x'AND b = 1").outcome)
      (Settings.load .builtIn) = true by decide +kernel)
  obtain ⟨r, hrestate, h⟩ := exists_of_passes h
  obtain ⟨hkind, hlength, hquery⟩ := of_decide_eq_true h
  obtain ⟨query, hqueries⟩ := List.length_eq_one_iff.1 hlength
  obtain ⟨hkeys, hplaceholders⟩ := hquery query (by simp [hqueries])
  exact ⟨settings, r, query, hload, hrestate, hkind, hqueries, hkeys, hplaceholders⟩

end Restate
