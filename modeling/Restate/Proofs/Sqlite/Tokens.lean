import Restate.Proofs.Lexing.Limits
import Restate.Proofs.Lexing.Silence
import Restate.Proofs.Sqlite.Endings
import Restate.Schema.Column

/-!
# Tokens as SQLite reads them

A name is written between double quotes, a literal between single ones, and any other token as it
stood. Main statements: by itself each token is read as it is meant, and it is complete before what
stood behind it (`stands_of_lexeme`); where two tokens touch, the one runs into the other just if
they meet in a hyphen or in a quote (`runsInto_sqliteText_iff`).
-/

namespace Restate

open Text Sqlite

/-- What SQLite is to read for a token: a name between double quotes, a literal between single
quotes, one lexeme for a word or a sign, and for a number, a variable or a placeholder what its text
is by itself. -/
def Token.reading (t : Token) : List Sqlite.Lexeme :=
  match t.kind with
  | .quotedIdentifier => [⟨.closed '"', quoteIdentifier t.value⟩]
  | .string => [⟨.closed '\x27', quoteString t.value⟩]
  | .keyword | .operator | .punctuation => [⟨.code, t.text⟩]
  | .identifier =>
    if t.text.head? = some '@' then lexemes together t.text else [⟨.code, t.text⟩]
  | _ => lexemes together t.text

/-- As SQLite writes them, the one token ends in the hyphen or quote that the other begins with. -/
def Merges (t u : Token) : Prop :=
  ∃ c ∈ seams, (sqliteText t).getLast? = some c ∧ (sqliteText u).head? = some c

instance (t u : Token) : Decidable (Merges t u) :=
  List.decidableBEx _ seams

/-- How a token stands as SQLite writes it, before what stands behind it in its source. -/
structure Token.Stands (t : Token) (next : Text) : Prop where
  reading : lexemes together (sqliteText t) = t.reading
  code : ∀ l ∈ t.reading, l.shape.isComment = false
  ends : ∃ l, t.reading.getLast? = some l ∧ Ends next l

variable {t u : Token} {s next rest : Text} {c : Char} {afterName : Bool}

section Numerals

open Restate.Lexeme (isVariableChar)

theorem isVariableChar_of_isNameChar (h : isNameChar c = true) : isVariableChar c = true := by
  simp [isVariableChar, h]

theorem IsMantissa.chars {s : Text} (h : IsMantissa s) : ∀ c ∈ s, isVariableChar c = true := by
  have hdecimal : ∀ {c : Char}, isDecimal c = true → isVariableChar c = true := fun hc =>
    isVariableChar_of_isNameChar (isNameChar_of_isDecimal hc)
  have hpoint : isVariableChar '.' = true := by decide
  cases h with
  | whole hdigits => exact fun c hc => hdecimal (hdigits.2 c hc)
  | pointed hdigits hfraction =>
      intro c hc
      rcases List.mem_append.1 hc with hc | hc
      · exact hdecimal (hdigits.2 c hc)
      · rcases List.mem_cons.1 hc with rfl | hc
        · exact hpoint
        · exact hdecimal (hfraction c hc)
  | fraction hdigits =>
      intro c hc
      rcases List.mem_cons.1 hc with rfl | hc
      · exact hpoint
      · exact hdecimal (hdigits.2 c hc)

theorem IsMantissa.ne_nil {s : Text} (h : IsMantissa s) : s ≠ [] := by
  cases h with
  | whole hdigits => exact hdigits.1
  | pointed | fraction => simp

/-- An exponent is plain, and ends in a digit. -/
theorem IsExponent.isPlain {s : Text} (h : IsExponent s) :
    IsPlain s ∧ ∃ c, s.getLast? = some c ∧ isVariableChar c = true := by
  have hletter : ∀ {e : Char}, e = 'e' ∨ e = 'E' → isVariableChar e = true := by
    rintro e (rfl | rfl)
    · decide
    · decide
  have hdigit : ∀ {digits : Text}, IsDigits digits → ∀ c ∈ digits, isVariableChar c = true :=
    fun hdigits c hc => isVariableChar_of_isNameChar (isNameChar_of_isDecimal (hdigits.2 c hc))
  have hend : ∀ {digits : Text} (front : Text), IsDigits digits →
      ∃ c, (front ++ digits).getLast? = some c ∧ isVariableChar c = true := by
    intro digits front hdigits
    have hlast := List.getLast?_eq_getLast_of_ne_nil hdigits.1
    exact ⟨_, (List.getLast?_append_of_ne_nil front hdigits.1).trans hlast,
      hdigit hdigits _ (List.mem_of_getLast? hlast)⟩
  cases h with
  | @unsigned e digits he hdigits =>
      refine ⟨.of_forall fun c hc => .inl ?_, hend [e] hdigits⟩
      rcases List.mem_cons.1 hc with rfl | hc
      · exact hletter he
      · exact hdigit hdigits c hc
  | @signed e sign digits he hsign hdigits =>
      have hplain : ∀ c ∈ digits, isVariableChar c = true ∨ c = '@' :=
        fun c hc => .inl (hdigit hdigits c hc)
      have htail : IsPlain (sign :: digits) := by
        refine ⟨fun c hc => ?_, ?_⟩
        · rcases List.mem_cons.1 hc with rfl | hc
          · rcases hsign with rfl | rfl
            · exact .inr (by simp)
            · exact .inr (by simp)
          · exact .inl (hdigit hdigits c hc)
        · have hone : [sign].count '-' ≤ 1 := List.count_le_length
          rw [← List.singleton_append, List.count_append, IsPlain.count_hyphen hplain]
          exact hone
      exact ⟨htail.append (p := [e]) (by simp [hletter he]), hend [e, sign] hdigits⟩

/-- A number is plain, and ends in a digit, a letter or a point. -/
theorem IsNumeral.isPlain {s : Text} (h : IsNumeral s) :
    IsPlain s ∧ ∃ c, s.getLast? = some c ∧ isVariableChar c = true := by
  have hwhole : ∀ {s : Text}, s ≠ [] → (∀ c ∈ s, isVariableChar c = true) →
      IsPlain s ∧ ∃ c, s.getLast? = some c ∧ isVariableChar c = true := by
    intro s hne hs
    have hlast := List.getLast?_eq_getLast_of_ne_nil hne
    exact ⟨.of_forall fun c hc => .inl (hs c hc), _, hlast, hs _ (List.mem_of_getLast? hlast)⟩
  cases h with
  | @hexadecimal x digits hx hne hdigits =>
      refine hwhole (by simp) fun c hc => isVariableChar_of_isNameChar ?_
      rcases List.mem_cons.1 hc with rfl | hc
      · decide
      · rcases List.mem_cons.1 hc with rfl | hc
        · rcases hx with rfl | rfl
          · decide
          · decide
        · exact isNameChar_of_isHexDigit (hdigits c hc)
  | decimal h =>
      cases h with
      | plain hm => exact hwhole hm.ne_nil hm.chars
      | @scientific mantissa exponent hm he =>
          obtain ⟨hplain, c, hlast, hc⟩ := he.isPlain
          have hne : exponent ≠ [] := by
            rintro rfl
            cases hlast
          refine ⟨hplain.append fun c hc => .inl (hm.chars c hc), c, ?_, hc⟩
          rw [List.getLast?_append_of_ne_nil _ hne, hlast]

end Numerals

section Stands

namespace Token.Stands

/-- A token that is one lexeme. -/
theorem of_single {l : Sqlite.Lexeme} (hlexemes : lexemes together (sqliteText t) = [l])
    (hreading : t.reading = [l]) (hcode : l.shape.isComment = false) (hends : Ends next l) :
    t.Stands next where
  reading := hlexemes.trans hreading.symm
  code := by simpa [hreading] using hcode
  ends := ⟨l, by rw [hreading]; rfl, hends⟩

/-- A token that is written as it stood and is plain. -/
theorem of_plain (htext : sqliteText t = t.text) (hreading : t.reading = lexemes together t.text)
    (hplain : IsPlain t.text) (hlast : t.text.getLast? = some c)
    (hc : Restate.Lexeme.isVariableChar c = true) (hnext : beginsWithWord next = false) :
    t.Stands next where
  reading := by rw [htext, hreading]
  code l hl := by
    rw [hreading] at hl
    rw [hplain.code l hl]
    rfl
  ends := by
    rw [hreading]
    exact hplain.ends hlast hc hnext

theorem of_word (hkind : t.kind.isBare = true) (hne : t.text ≠ [])
    (hword : t.text.all isNameChar = true) (hnext : beginsWithWord next = false) :
    t.Stands next := by
  have hat : t.text.head? ≠ some '@' := by
    intro hhead
    have := List.all_eq_true.1 hword '@' (List.mem_of_mem_head? hhead)
    revert this
    decide
  have htext : sqliteText t = t.text ∧ t.reading = [.word t.text] := by
    unfold sqliteText Token.reading
    cases hk : t.kind with
    | keyword => exact ⟨rfl, rfl⟩
    | identifier => exact ⟨rfl, if_neg hat⟩
    | _ => simp [hk, TokenKind.isBare] at hkind
  refine of_single ?_ htext.2 rfl (.word hne hword hnext)
  rw [htext.1, lexemes_word hne hword]

/-- A character that stands alone. -/
theorem of_alone (hkind : t.kind = .placeholder ∨ t.kind = .punctuation) (htext : t.text = [c])
    (hc : standsAlone c = true) : t.Stands next := by
  have hread : lexemes together [c] = [.ofMark c] := lexemes_alone_cons hc []
  have hwritten : sqliteText t = [c] ∧ t.reading = [.ofMark c] := by
    unfold sqliteText Token.reading
    rcases hkind with hkind | hkind
    · rw [hkind, htext]
      exact ⟨rfl, hread⟩
    · rw [hkind, htext]
      exact ⟨rfl, rfl⟩
  exact of_single (by rw [hwritten.1, hread]) hwritten.2 rfl (.alone hc)

end Token.Stands

theorem beginsWithWord_eq (s : Text) : beginsWithWord s = Restate.Lexeme.nameFollows s := by
  cases s with
  | nil => rfl
  | cons c s => rfl

section Variables

variable {signs name : Text}

/-- A bare variable is plain. -/
theorem stands_bareVariable (hwritten : sqliteText t = t.text)
    (hreading : t.reading = lexemes together t.text) (htext : t.text = signs ++ name)
    (hsigns : ∀ c ∈ signs, c = '@') (hne : name ≠ [])
    (hname : ∀ c ∈ name, Restate.Lexeme.isVariableChar c = true)
    (hnext : beginsWithWord next = false) : t.Stands next := by
  have hlast := List.getLast?_eq_getLast_of_ne_nil hne
  have hplain : IsPlain t.text := by
    rw [htext]
    exact (IsPlain.of_forall fun c hc => .inl (hname c hc)).append fun c hc => .inr (hsigns c hc)
  refine .of_plain hwritten hreading hplain (c := name.getLast hne) ?_ ?_ hnext
  · rw [htext, List.getLast?_append_of_ne_nil _ hne, hlast]
  · exact hname _ (List.getLast_mem hne)

/-- At signs stand alone before a quoted span. -/
theorem lexemes_signs {l : Sqlite.Lexeme} (hsigns : ∀ c ∈ signs, c = '@')
    (hname : lexemes together name = [l]) :
    lexemes together (signs ++ name) = signs.map .ofMark ++ [l] := by
  have hat : standsAlone '@' = true := by decide
  induction signs with
  | nil => exact hname
  | cons c signs ih =>
      obtain ⟨rfl, hrest⟩ := List.forall_mem_cons.1 hsigns
      rw [List.cons_append, lexemes_alone_cons hat, ih hrest]
      rfl

/-- A variable between delimiters ends in a span that is closed. -/
theorem stands_quotedVariable {quote : Char} (hwritten : sqliteText t = t.text)
    (hreading : t.reading = lexemes together t.text) (htext : t.text = signs ++ name)
    (hsigns : ∀ c ∈ signs, c = '@') (hquote : Restate.Lexeme.IsDelimiter quote) {inner : Text}
    (hinner : ∀ c ∈ inner, c ≠ quote) (hspan : name = quote :: inner ++ [quote]) :
    t.Stands next := by
  have hfirst : Shape.ofFirst quote = .quoted quote := by
    rcases hquote with rfl | rfl | rfl
    · decide
    · decide
    · decide
  have hone : lexemes together name = [⟨.closed quote, name⟩] := by
    have hquoted := lexemes_quoted hfirst inner
    rwa [doubled_of_not_mem hinner, ← List.cons_append, ← hspan] at hquoted
  rw [htext, lexemes_signs hsigns hone] at hreading
  refine ⟨?_, ?_, ⟨.closed quote, name⟩, ?_, .closed hfirst ?_⟩
  · rw [hwritten, htext, hreading, lexemes_signs hsigns hone]
  · intro l hl
    rw [hreading] at hl
    rcases List.mem_append.1 hl with hl | hl
    · obtain ⟨c, -, rfl⟩ := List.mem_map.1 hl
      rfl
    · rw [List.mem_singleton.1 hl]
      rfl
  · rw [hreading, List.getLast?_concat]
  · rw [hspan, List.getLast?_concat]

theorem stands_atName {s : Text} (hkind : t.kind = .identifier)
    (h : Restate.Lexeme.atName? s = some (t.text, next)) : t.Stands next := by
  obtain ⟨signs, more, name, hsigns, hname, htext⟩ := Restate.Lexeme.atName_spec h
  dsimp only at hname htext
  have hall : ∀ c ∈ signs, c = '@' := by
    rcases hsigns with rfl | rfl
    · simp
    · simp
  have hhead : t.text.head? = some '@' := by
    rcases hsigns with rfl | rfl
    · rw [htext]; rfl
    · rw [htext]; rfl
  have hwritten : sqliteText t = t.text := by rw [sqliteText, hkind]
  have hreading : t.reading = lexemes together t.text := by
    rw [Token.reading, hkind]
    exact if_pos hhead
  rcases Restate.Lexeme.variableName_cases hname with hbare | ⟨quote, inner, hquote, hinner, hspan⟩
  · have hfollows := Restate.Lexeme.variableName_rest hname hbare
    rw [← beginsWithWord_eq] at hfollows
    exact stands_bareVariable hwritten hreading htext hall
      (Restate.Lexeme.takes_variableName hname).1 hbare hfollows
  · exact stands_quotedVariable hwritten hreading htext hall hquote hinner hspan

end Variables

/-- A named placeholder, which a dollar sign would go on with. -/
theorem stands_namedPlaceholder {name : Text} (hkind : t.kind = .placeholder)
    (htext : t.text = ':' :: name) (hne : name ≠ []) (hname : ∀ c ∈ name, isWordChar c = true)
    (hstop : ∀ c ∈ next.head?, isWordChar c = false) (hdollar : next.head? ≠ some '$') :
    t.Stands next := by
  have hword : name.all isNameChar = true :=
    List.all_eq_true.2 fun c hc => Bool.or_eq_true_iff.2 (.inl (hname c hc))
  have hbegins : beginsWithWord name = true := by
    obtain ⟨c, name, rfl⟩ := List.exists_cons_of_ne_nil hne
    exact List.all_eq_true.1 hword c List.mem_cons_self
  have hnext : beginsWithWord next = false := by
    rw [beginsWithWord_eq, Restate.Lexeme.nameFollows_eq_false_iff]
    intro c hc
    have hother : c ≠ '$' := by
      rintro rfl
      exact hdollar hc
    simp [isNameChar, hstop c hc, hother]
  have hcolon : lexemes together [':'] = [.ofMark ':'] := by decide
  have hread : lexemes together t.text = [.ofMark ':', .word name] := by
    have happart : runsInto together [':'] name = false :=
      (runsInto_word_iff hbegins).2 (by decide)
    rw [htext, ← List.singleton_append, lexemes_append happart, hcolon, lexemes_word hne hword]
    rfl
  have hreading : t.reading = lexemes together t.text := by rw [Token.reading, hkind]
  refine ⟨by rw [sqliteText, hkind, hreading], ?_, .word name, ?_, .word hne hword hnext⟩
  · rw [hreading, hread]
    simp [Lexeme.ofMark, Lexeme.word, Shape.isComment]
  · rw [hreading, hread]
    rfl

/-- Each token but trivia stands as it is to be read, where no dollar sign follows it. -/
theorem stands_of_lexeme (h : lexeme afterName c s = .ok (t.kind, t.text, rest))
    (ht : t.isTrivia = false) (hrest : rest.head? ≠ some '$') : t.Stands rest := by
  have hne : t.text ≠ [] := (takes_lexeme h).1
  have hreads := reads_of_lexeme h
  generalize hcut : (t.text, rest) = cut at hreads
  generalize hkind : t.kind = kind at hreads
  have htext : t.text = cut.1 := congrArg Prod.fst hcut
  have hleft : rest = cut.2 := congrArg Prod.snd hcut
  cases hreads with
  | blanks | line | block => simp [Token.isTrivia, hkind, TokenKind.isTrivia] at ht
  | name =>
      refine .of_single ?_ (by rw [Token.reading, hkind]) rfl (.closed rfl ?_)
      · rw [sqliteText, hkind, lexemes_quoteIdentifier]
      · exact List.getLast?_concat
  | literal =>
      refine .of_single ?_ (by rw [Token.reading, hkind]) rfl (.closed rfl ?_)
      · rw [sqliteText, hkind, lexemes_quoteString]
      · exact List.getLast?_concat
  | number hnumber =>
      obtain ⟨hnumeral, hfollows⟩ := Restate.Lexeme.number_spec hnumber
      rw [← hleft, ← beginsWithWord_eq] at hfollows
      rw [← htext] at hnumeral
      obtain ⟨hplain, d, hlast, hd⟩ := hnumeral.isPlain
      exact .of_plain (by rw [sqliteText, hkind]) (by rw [Token.reading, hkind]) hplain hlast hd
        hfollows
  | digits hdigits =>
      obtain ⟨hword, hfollows⟩ := Restate.Lexeme.digitName_spec hdigits
      rw [← hleft, ← beginsWithWord_eq] at hfollows
      exact .of_word (by rw [hkind]; rfl) hne (htext ▸ hword) hfollows
  | keyword hword | word hword =>
      obtain ⟨hword, hfollows⟩ := Restate.Lexeme.word_spec hword
      rw [← hleft, ← beginsWithWord_eq] at hfollows
      exact .of_word (by rw [hkind]; rfl) hne (htext ▸ hword) hfollows
  | atName hname => exact stands_atName hkind (hcut ▸ hname)
  | position hc => exact .of_alone (.inl hkind) (htext.trans (by rw [hc])) (by decide)
  | named hname =>
      obtain ⟨name, hcolon, hname', hword⟩ := Restate.Lexeme.placeholder_name hname
      have hstop := Restate.Lexeme.namedPlaceholder_rest hname
      rw [← htext] at hcolon
      rw [← hleft] at hstop
      exact stands_namedPlaceholder hkind hcolon hname' hword hstop hrest
  | sign hsign =>
      obtain ⟨hmem, hlonger⟩ := Restate.Lexeme.operator_spec hsign
      rw [← htext, ← hleft] at hlonger
      rw [← htext] at hmem
      have hread : ∀ sign ∈ Restate.Lexeme.operators, lexemes together sign = [⟨.code, sign⟩] := by
        decide +kernel
      refine .of_single ?_ (by rw [Token.reading, hkind]) rfl (.sign hmem hlonger ?_)
      · rw [sqliteText, hkind]
        exact hread _ hmem
      · -- a slash before a star is no operator but opens a comment
        intro hslash hstar
        obtain ⟨body, rfl⟩ := List.head?_eq_some_iff.1 hstar
        have hsource := append_eq_of_lexeme h
        rw [hslash, List.singleton_append] at hsource
        obtain ⟨rfl, rfl⟩ := List.cons.inj hsource
        rw [lexeme_block] at h
        split at h
        · obtain ⟨hcomment, -⟩ := Prod.mk.inj (Except.ok.inj h)
          rw [hkind] at hcomment
          cases hcomment
        · cases h
  | mark hmark =>
      have halone : Restate.Lexeme.punctuation.all standsAlone = true := by decide
      exact .of_alone (.inr hkind) htext (List.all_eq_true.1 halone c hmark)

end Stands

section Seams

/-- How a token begins as SQLite writes it. -/
theorem head_sqliteText (h : lexeme afterName c s = .ok (u.kind, u.text, rest))
    (hu : u.isTrivia = false) :
    ∃ d more, sqliteText u = d :: more ∧
      (u.text.head? = some d ∨ d = '\x27' ∨ d = '"') ∧ d ≠ backtick ∧ isBlank d = false := by
  obtain ⟨d, more, htext⟩ := List.exists_cons_of_ne_nil (takes_lexeme h).1
  have hsource := append_eq_of_lexeme h
  dsimp only at htext
  rw [htext] at hsource
  obtain ⟨rfl, -⟩ := List.cons.inj hsource
  by_cases hname : u.kind = .quotedIdentifier
  · exact ⟨'"', _, by rw [sqliteText, hname]; rfl, by simp, by decide, by decide⟩
  by_cases hstring : u.kind = .string
  · exact ⟨'\x27', _, by rw [sqliteText, hstring]; rfl, by simp, by decide, by decide⟩
  have hwritten : sqliteText u = u.text := by
    unfold sqliteText
    cases hkind : u.kind with
    | quotedIdentifier => exact (hname hkind).elim
    | string => exact (hstring hkind).elim
    | _ => rfl
  refine ⟨d, more, hwritten.trans htext, .inl (by rw [htext]; rfl), ?_, ?_⟩
  · rintro rfl
    have hline := Restate.Lexeme.lineComment_none (c := backtick) (s := s) (by decide)
      fun hc => absurd hc (by decide)
    rw [lexeme_code (by decide) hline fun hc => absurd hc (by decide), if_pos rfl] at h
    split at h
    · exact hname (Prod.mk.inj (Except.ok.inj h)).1.symm
    · cases h
  · rw [← Bool.not_eq_true]
    intro hblank
    rw [lexeme_blank hblank] at h
    have hkind := (Prod.mk.inj (Except.ok.inj h)).1
    simp [Token.isTrivia, ← hkind, TokenKind.isTrivia] at hu

theorem runsInto_sqliteText_iff (ht : t.Stands next)
    (hu : lexeme afterName c s = .ok (u.kind, u.text, rest)) (htrivia : u.isTrivia = false)
    (hnext : next.head? = u.text.head?) :
    runsInto together (sqliteText t) (sqliteText u) = false ↔ ¬ Merges t u := by
  obtain ⟨d, more, hhead, hfirst, htick, -⟩ := head_sqliteText hu htrivia
  obtain ⟨l, hlast, hends⟩ := ht.ends
  rw [← ht.reading] at hlast
  rw [← hnext] at hfirst
  have hmerges : Merges t u ↔ d ∈ seams ∧ l.text.getLast? = some d := by
    rw [Merges, getLast?_eq hlast, hhead]
    constructor
    · rintro ⟨e, he, hend, hbegin⟩
      obtain rfl : d = e := by simpa using hbegin
      exact ⟨he, hend⟩
    · rintro ⟨hd, hend⟩
      exact ⟨d, hd, hend, rfl⟩
  rw [hhead, runsInto_cons_iff hlast, hends.extend?_iff hfirst htick, hmerges]

/-- A blank keeps what is written before and behind it apart. -/
theorem runsInto_space (ht : t.Stands next)
    (hu : lexeme afterName c s = .ok (u.kind, u.text, rest)) (htrivia : u.isTrivia = false) :
    runsInto together (sqliteText t) [' '] = false ∧
      runsInto together [' '] (sqliteText u) = false := by
  obtain ⟨l, hlast, hends⟩ := ht.ends
  rw [← ht.reading] at hlast
  obtain ⟨d, more, hhead, -, -, hblank⟩ := head_sqliteText hu htrivia
  refine ⟨(runsInto_cons_iff hlast).2 hends.extend?_space, ?_⟩
  have hspace : lexemes together [' '] = [⟨.code, [' ']⟩] := by decide
  have hoperator : [' ', d] ∉ Restate.Lexeme.operators := by
    intro hmem
    have hclass := (operator_chars hmem ' ' List.mem_cons_self).2.1
    revert hclass
    decide
  have hname : isNameChar ' ' = false := by decide
  rw [hhead, runsInto_cons_iff (l := ⟨.code, [' ']⟩) (by rw [hspace]; rfl)]
  simp [Sqlite.Lexeme.extend?, together, hblank, hname, hoperator]

end Seams

end Restate
