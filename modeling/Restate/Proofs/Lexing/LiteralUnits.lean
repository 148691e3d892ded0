import Restate.Proofs.Lexing.Locality
import Restate.Proofs.Restatement
import Restate.Proofs.Sqlite.Reading

/-!
# The units of a literal

Between the delimiters of a literal stand units: a backslash with the character it escapes, a
doubled delimiter, or a single character that is neither a backslash nor the delimiter. The search
for the end of a literal and the decoding of it are two readings, and both go from unit to unit.
Main statement: a literal of a statement is made of units, in one way only, and decodes to what each
of them stands for; and any contents can be written as a literal and are found and decoded again
(`literals_read_by_units`).
-/

namespace Restate

open Text

/-- The delimiters of literals. -/
def Token.IsLiteralQuote (quote : Char) : Prop :=
  quote = '\x27' ∨ quote = '"'

namespace Token.IsLiteralQuote

variable {quote : Char}

theorem ne_backslash (h : Token.IsLiteralQuote quote) : quote ≠ '\\' := by
  rintro rfl
  simp [Token.IsLiteralQuote] at h

theorem escapes (h : Token.IsLiteralQuote quote) : (quote != backtick) = true := by
  rcases h with rfl | rfl
  · rfl
  · rfl

end Token.IsLiteralQuote

/-- A unit of what stands between two delimiters. -/
inductive LiteralUnit (quote : Char) where
  /-- A backslash and the character behind it, whatever it is. -/
  | escaped (c : Char)
  /-- The delimiter twice. -/
  | doubled
  | single (c : Char) (hc : c ≠ '\\' ∧ c ≠ quote)

namespace LiteralUnit

variable {quote : Char}

/-- The unit as it is written. -/
def text : LiteralUnit quote → Text
  | escaped c => ['\\', c]
  | doubled => [quote, quote]
  | single c _ => [c]

/-- What the unit stands for. -/
def image : LiteralUnit quote → Text
  | escaped c => escapeImage c
  | doubled => [quote]
  | single c _ => [c]

/-- Units one after another. -/
def written (units : List (LiteralUnit quote)) : Text :=
  units.flatMap text

/-- The unit in which a character of a value is written. -/
def ofChar (quote c : Char) : LiteralUnit quote :=
  if hslash : c = '\\' then escaped c
  else if hquote : c = quote then doubled
  else single c ⟨hslash, hquote⟩

@[simp]
theorem written_nil : written ([] : List (LiteralUnit quote)) = [] :=
  rfl

@[simp]
theorem written_cons (u : LiteralUnit quote) (units : List (LiteralUnit quote)) :
    written (u :: units) = u.text ++ written units :=
  List.flatMap_cons

section Scanning

/-- What is read through to the closing delimiter is made of units. -/
theorem exists_of_throughQuote {s : Text} {cut : Cut}
    (h : Lexeme.throughQuote quote true s = some cut) :
    ∃ units : List (LiteralUnit quote), cut.1 = written units ++ [quote] := by
  fun_induction Lexeme.throughQuote quote true s generalizing cut with
  | case1 => simp at h
  | case2 => simp at h
  | case3 =>
      cases h
      exact ⟨[], rfl⟩
  | case4 => simp at h
  | case5 c d s hescape ih =>
      obtain ⟨cut, hcut, rfl⟩ := Option.map_eq_some_iff.1 h
      obtain ⟨units, hunits⟩ := ih hcut
      exact ⟨escaped d :: units, by simp [Cut.after, text, hunits, hescape.1]⟩
  | case6 s hescape ih =>
      obtain ⟨cut, hcut, rfl⟩ := Option.map_eq_some_iff.1 h
      obtain ⟨units, hunits⟩ := ih hcut
      exact ⟨doubled :: units, by simp [Cut.after, text, hunits]⟩
  | case7 =>
      cases h
      exact ⟨[], rfl⟩
  | case8 c d s hescape hc ih =>
      obtain ⟨cut, hcut, rfl⟩ := Option.map_eq_some_iff.1 h
      obtain ⟨units, hunits⟩ := ih hcut
      have hslash : c ≠ '\\' := fun hc => hescape ⟨hc, rfl⟩
      exact ⟨single c ⟨hslash, hc⟩ :: units, by simp [Cut.after, text, hunits]⟩

/-- Units with a delimiter behind them are read through to there, if it does not go on. -/
theorem throughQuote_written (hquote : quote ≠ '\\') (units : List (LiteralUnit quote))
    {rest : Text} (hrest : rest.head? ≠ some quote) :
    Lexeme.throughQuote quote true (written units ++ quote :: rest) =
      some (written units ++ [quote], rest) := by
  induction units with
  | nil =>
      cases rest with
      | nil => simp [Lexeme.throughQuote, hquote]
      | cons d rest =>
          have hd : d ≠ quote := by simpa using hrest
          simp [Lexeme.throughQuote, hquote, hd]
  | cons u units ih =>
      cases u with
      | escaped c => simp [text, Lexeme.throughQuote, ih, Cut.after]
      | doubled => simp [text, Lexeme.throughQuote, hquote, ih, Cut.after]
      | single c hc =>
          -- the reader looks at two characters, and one more always follows
          obtain ⟨e, more, hmore⟩ : ∃ e more, written units ++ quote :: rest = e :: more :=
            List.exists_cons_of_ne_nil (by simp)
          rw [hmore] at ih
          simp [text, hmore, Lexeme.throughQuote, hc.1, hc.2, ih, Cut.after]

/-- A quoted span is a delimiter, units, and a delimiter that is not doubled. -/
theorem quoted?_eq_some_iff (hquote : Token.IsLiteralQuote quote) {s text rest : Text} :
    Lexeme.quoted? quote s = some (text, rest) ↔
      ∃ units : List (LiteralUnit quote), text = quote :: (written units ++ [quote]) ∧
        s = written units ++ quote :: rest ∧ rest.head? ≠ some quote := by
  rw [Lexeme.quoted?, hquote.escapes, Option.map_eq_some_iff]
  constructor
  · rintro ⟨⟨body, rest'⟩, hthrough, heq⟩
    obtain ⟨rfl, rfl⟩ := Prod.mk.inj heq
    obtain ⟨units, hunits⟩ := exists_of_throughQuote hthrough
    obtain ⟨rfl, -, hrest⟩ := (Lexeme.throughQuote_iff _ _ _).1 hthrough
    obtain rfl : body = written units ++ [quote] := hunits
    exact ⟨units, rfl, List.append_assoc _ _ _, hrest⟩
  · rintro ⟨units, rfl, rfl, hrest⟩
    exact ⟨_, throughQuote_written hquote.ne_backslash units hrest, rfl⟩

end Scanning

section Decoding

/-- A character that begins neither an escape nor a doubled delimiter stands for itself. -/
theorem unescape_single {c : Char} (hslash : c ≠ '\\') (hquote : c ≠ quote) (s : Text) :
    unescape quote (c :: s) = c :: unescape quote s := by
  cases s with
  | nil => rfl
  | cons d s => simp [unescape, hslash, hquote]

/-- Decoding goes from unit to unit. -/
theorem unescape_written (hquote : quote ≠ '\\') (units : List (LiteralUnit quote)) :
    unescape quote (written units) = units.flatMap image := by
  induction units with
  | nil => rfl
  | cons u units ih =>
      rw [written_cons, List.flatMap_cons, ← ih]
      cases u with
      | escaped c => simp [text, image, unescape]
      | doubled => simp [text, image, unescape, hquote]
      | single c hc => exact unescape_single hc.1 hc.2 _

/-- Two rows of units are not written alike. -/
theorem written_injective (hquote : quote ≠ '\\') :
    Function.Injective (@written quote) := by
  intro units other h
  induction units generalizing other with
  | nil =>
      cases other with
      | nil => rfl
      | cons v other => cases v <;> simp [text] at h
  | cons u units ih =>
      cases other with
      | nil => cases u <;> simp [text] at h
      | cons v other =>
          -- the first character tells which unit it begins
          rw [written_cons, written_cons] at h
          cases u with
          | escaped c =>
              cases v with
              | escaped d =>
                  obtain ⟨rfl, hrest⟩ : c = d ∧ written units = written other := by
                    simpa [text] using h
                  rw [ih hrest]
              | doubled => simp [text, hquote.symm] at h
              | single d hd => simp [text, hd.1.symm] at h
          | doubled =>
              cases v with
              | escaped d => simp [text, hquote] at h
              | doubled => rw [ih (by simpa [text] using h)]
              | single d hd => simp [text, hd.2.symm] at h
          | single c hc =>
              cases v with
              | escaped d => simp [text, hc.1] at h
              | doubled => simp [text, hc.2] at h
              | single d hd =>
                  obtain ⟨rfl, hrest⟩ : c = d ∧ written units = written other := by
                    simpa [text] using h
                  rw [ih hrest]

end Decoding

section Writing

/-- A value is written with its backslashes and its delimiters twice. -/
theorem written_map_ofChar (hquote : quote ≠ '\\') (value : Text) :
    written (value.map (ofChar quote)) = Text.doubled quote (Text.doubled '\\' value) := by
  induction value with
  | nil => rfl
  | cons c value ih =>
      rw [List.map_cons, written_cons, ih]
      by_cases hslash : c = '\\'
      · simp [ofChar, text, Text.doubled, hslash, hquote.symm]
      · by_cases hc : c = quote
        · simp [ofChar, text, Text.doubled, hc, hquote]
        · simp [ofChar, text, Text.doubled, hslash, hc]

theorem image_ofChar (quote c : Char) : (ofChar quote c).image = [c] := by
  unfold ofChar
  split
  · next hslash =>
      rw [hslash]
      rfl
  · split
    · next hquote =>
        rw [hquote]
        rfl
    · rfl

/-- What a value is written as stands for the value. -/
theorem flatMap_image_ofChar (quote : Char) (value : Text) :
    (value.map (ofChar quote)).flatMap image = value := by
  rw [List.flatMap_map]
  simp only [image_ofChar, List.flatMap_singleton']

end Writing

end LiteralUnit

/-- Where the quoted span ends that begins at an offset of a text. -/
def spanEnd? (s : Text) (offset : Nat) : Option Nat :=
  match s.drop offset with
  | [] => none
  | quote :: rest => (Lexeme.quoted? quote rest).map fun cut => offset + cut.1.length

section Literals

variable {quote : Char}

theorem decodeString?_written (hquote : quote ≠ '\\') (units : List (LiteralUnit quote)) :
    decodeString? (quote :: (LiteralUnit.written units ++ [quote])) =
      some (units.flatMap LiteralUnit.image) := by
  rw [decodeString?, List.dropLast_concat, LiteralUnit.unescape_written hquote]

/-- The text of a literal that the lexer reads. -/
theorem Token.IsRead.literal {t : Token} (h : t.IsRead) (hkind : t.kind = .string) :
    ∃ quote, Token.IsLiteralQuote quote ∧ ∃ units : List (LiteralUnit quote),
      t.text = quote :: (LiteralUnit.written units ++ [quote]) := by
  obtain ⟨_, quote, s, rest, hlex⟩ := h
  have hreads := reads_of_lexeme hlex
  rw [hkind] at hreads
  generalize hcut : (t.text, rest) = cut at hreads
  cases hreads with
  | literal hquote hspan =>
      rw [← hcut] at hspan
      obtain ⟨units, htext, -, -⟩ := (LiteralUnit.quoted?_eq_some_iff hquote).1 hspan
      exact ⟨quote, hquote, units, htext⟩

/-- Literals are found and decoded by the same units. A literal of a statement is made of units
between two delimiters, in one way only, and decodes to what they stand for. A value written with
its backslashes and its delimiters twice is found between other texts, up to its closing delimiter
and no further, and decodes to the value. SQLite's form of a value is one literal to SQLite, and
halving what stands in it gives the value. -/
theorem literals_read_by_units :
    (∀ sql tokens, tokenize sql = .ok tokens → ∀ t ∈ tokens, t.kind = .string →
      ∃ quote, Token.IsLiteralQuote quote ∧ ∃ units : List (LiteralUnit quote),
        (∀ others, t.text = quote :: (LiteralUnit.written others ++ [quote]) ↔ others = units) ∧
        decodeString? t.text = some (units.flatMap LiteralUnit.image)) ∧
    (∀ quote, Token.IsLiteralQuote quote → ∀ (value left right : Text),
      right.head? ≠ some quote →
      let body := doubled quote (doubled '\\' value)
      spanEnd? (left ++ quote :: (body ++ quote :: right)) left.length =
          some (left.length + 1 + body.length + 1) ∧
        decodeString? (quote :: (body ++ [quote])) = some value) ∧
    ∀ value, ∃ body, quoteString value = '\x27' :: (body ++ ['\x27']) ∧
      halved '\x27' body = value ∧
      Sqlite.lexemes Sqlite.together (quoteString value) =
        [⟨.closed '\x27', quoteString value⟩] := by
  refine ⟨?_, ?_, ?_⟩
  · intro sql tokens htokens t ht hkind
    obtain ⟨-, -, hread⟩ := tiles_of_tokenize htokens
    obtain ⟨quote, hquote, units, htext⟩ := (hread t ht).literal hkind
    refine ⟨quote, hquote, units, fun others => ?_, ?_⟩
    · rw [htext, List.cons.injEq, and_iff_right rfl, List.append_left_inj,
        (LiteralUnit.written_injective hquote.ne_backslash).eq_iff, eq_comm]
    · rw [htext, decodeString?_written hquote.ne_backslash]
  · intro quote hquote value left right hright body
    have hbody : LiteralUnit.written (value.map (LiteralUnit.ofChar quote)) = body :=
      LiteralUnit.written_map_ofChar hquote.ne_backslash value
    have hspan : Lexeme.quoted? quote (body ++ quote :: right) =
        some (quote :: (body ++ [quote]), right) :=
      (LiteralUnit.quoted?_eq_some_iff hquote).2 ⟨_, by rw [hbody], by rw [hbody], hright⟩
    constructor
    · rw [spanEnd?, List.drop_left]
      dsimp only
      rw [hspan, Option.map_some, Option.some.injEq, List.length_cons, List.length_append,
        List.length_singleton]
      omega
    · rw [← hbody, decodeString?_written hquote.ne_backslash, LiteralUnit.flatMap_image_ofChar]
  · intro value
    exact ⟨doubled '\x27' value, rfl, halved_doubled _ value, Sqlite.lexemes_quoted rfl value⟩

/-- Units next to each other and next to the delimiters: an escaped delimiter before a doubled one,
and escaped backslashes before a closing and a doubled one. -/
theorem literals_read_by_units_mixed :
    (∃ tokens t, tokenize "SELECT '\\'''a\\\\'" = .ok tokens ∧ t ∈ tokens ∧ t.kind = .string ∧
      ∃ quote, Token.IsLiteralQuote quote ∧ ∃ units : List (LiteralUnit quote),
        (∀ others, t.text = quote :: (LiteralUnit.written others ++ [quote]) ↔ others = units) ∧
        decodeString? t.text = some (units.flatMap LiteralUnit.image)) ∧
    spanEnd? "a = '\\\\''b' AND c" 4 = some 11 ∧
    decodeString? "'\\\\''b'" = some "\\'b".toList := by
  obtain ⟨tokens, htokens, h⟩ := exists_of_passes (show passes
    (fun tokens => tokens.any (·.kind == .string)) (tokenize "SELECT '\\'''a\\\\'") = true by
      decide +kernel)
  obtain ⟨t, ht, hkind⟩ := List.any_eq_true.1 h
  have hkind := eq_of_beq hkind
  have hspan := literals_read_by_units.2.1 '\x27' (.inl rfl) "\\'b" "a = " " AND c" (by decide)
  exact ⟨⟨tokens, t, htokens, ht, hkind, literals_read_by_units.1 _ tokens htokens t ht hkind⟩,
    hspan⟩

end Literals

end Restate
