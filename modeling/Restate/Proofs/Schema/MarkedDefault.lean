import Restate.Proofs.Lexing.Silence
import Restate.Proofs.Rows.Bits
import Restate.Proofs.Schema.Faults
import Restate.Proofs.Sqlite.Reading

/-!
# Defaults that are marked literals

A literal marked as bytes or bits is converted in two places: where the literals of a statement are
bound, and where it is the default of a column. There its quotes are not doubled, and bits without a
value are not refused. Main statement: both conversions agree just on bytes without a quote and on
bits with a value that can be written (`Reading.defaultValue_alike_iff`).
-/

namespace Restate

open Text

/-- What a marked literal becomes where the literals of a statement are bound. -/
def boundText (stem : Text) (marker literal : Token) : Except Error Text :=
  (Parameter.extract stem [marker, literal]).map fun bound => sourceText bound.tokens

/-- Two outcomes are the same text, or both refuse. -/
def SameOutcome (x y : Except Error Text) : Prop :=
  (∃ text, x = .ok text ∧ y = .ok text) ∨
    (∃ e, x = .error e ∧ e.IsRefusal) ∧ ∃ e, y = .error e ∧ e.IsRefusal

namespace Sqlite

/-- The text is one closed literal of bytes. -/
def IsByteLiteral (text : Text) : Prop :=
  ∃ span, lexemes together text = [⟨.code, ['X']⟩, ⟨.closed '\x27', span⟩]

variable {quote : Char} {s : Text}

theorem lexemesFrom_ne_singleton {rules : Rules} {l : Lexeme} {c : Char}
    (h : l.extend? rules c = none) (last : Lexeme) : lexemesFrom rules l (c :: s) ≠ [last] := by
  obtain ⟨first, rest, heq, -⟩ := head_lexemesFrom rules (Lexeme.ofChar c) s
  simp [lexemesFrom, h, heq]

/-- Every quote in the text is followed by another, from the left. -/
def InPairs (quote : Char) (s : Text) : Prop :=
  ∃ w, s = doubled quote w

theorem doubled_cons (quote c : Char) (s : Text) :
    doubled quote (c :: s) = (if c = quote then [quote, quote] else [c]) ++ doubled quote s :=
  rfl

theorem inPairs_nil (quote : Char) : InPairs quote [] :=
  ⟨[], rfl⟩

theorem inPairs_cons_of_ne {c : Char} (hc : c ≠ quote) :
    InPairs quote (c :: s) ↔ InPairs quote s := by
  constructor
  · rintro ⟨w, hw⟩
    cases w with
    | nil => simp [doubled] at hw
    | cons d w =>
        rw [doubled_cons] at hw
        split at hw
        · exact absurd (List.cons.inj hw).1 hc
        · exact ⟨w, (List.cons.inj hw).2⟩
  · rintro ⟨w, rfl⟩
    exact ⟨c :: w, by rw [doubled_cons, if_neg hc]; rfl⟩

theorem inPairs_quote_cons :
    InPairs quote (quote :: s) ↔ ∃ r, s = quote :: r ∧ InPairs quote r := by
  constructor
  · rintro ⟨w, hw⟩
    cases w with
    | nil => simp [doubled] at hw
    | cons d w =>
        rw [doubled_cons] at hw
        split at hw
        · exact ⟨_, (List.cons.inj hw).2, w, rfl⟩
        · next hd => exact absurd (List.cons.inj hw).1.symm hd
  · rintro ⟨_, rfl, w, rfl⟩
    exact ⟨quote :: w, by rw [doubled_cons, if_pos rfl]; rfl⟩

theorem lexemesFrom_quoted_quote (read : Text) :
    lexemesFrom together ⟨.quoted quote, read⟩ (quote :: s) =
      lexemesFrom together ⟨.closed quote, read ++ [quote]⟩ s := by
  simp [lexemesFrom, Lexeme.extend?]

theorem lexemesFrom_quoted_of_ne {c : Char} (hc : c ≠ quote) (read : Text) :
    lexemesFrom together ⟨.quoted quote, read⟩ (c :: s) =
      lexemesFrom together ⟨.quoted quote, read ++ [c]⟩ s := by
  simp [lexemesFrom, Lexeme.extend?, hc]

theorem lexemesFrom_closed_quote (read : Text) :
    lexemesFrom together ⟨.closed quote, read⟩ (quote :: s) =
      lexemesFrom together ⟨.quoted quote, read ++ [quote]⟩ s := by
  simp [lexemesFrom, Lexeme.extend?, show together.doubling = true from rfl]

/-- A span that goes on with a text and a quote is closed by that quote just if the text has its
quotes in pairs. -/
theorem lexemesFrom_quoted_iff (read : Text) :
    (∃ span, lexemesFrom together ⟨.quoted quote, read⟩ (s ++ [quote]) =
      [⟨.closed quote, span⟩]) ↔ InPairs quote s := by
  fun_induction halved quote s generalizing read with
  | case1 =>
      refine iff_of_true ⟨read ++ [quote], ?_⟩ (inPairs_nil quote)
      rw [List.nil_append, lexemesFrom_quoted_quote]
      rfl
  | case2 d =>
      rw [List.singleton_append]
      by_cases hd : d = quote
      · subst hd
        rw [inPairs_quote_cons, lexemesFrom_quoted_quote, lexemesFrom_closed_quote]
        exact iff_of_false (by simp [lexemesFrom]) (by simp)
      · rw [inPairs_cons_of_ne hd, lexemesFrom_quoted_of_ne hd, lexemesFrom_quoted_quote]
        exact iff_of_true ⟨_, rfl⟩ (inPairs_nil quote)
  | case3 d e s hpair ih =>
      obtain ⟨rfl, rfl⟩ := hpair
      rw [List.cons_append, List.cons_append, lexemesFrom_quoted_quote, lexemesFrom_closed_quote,
        ih, inPairs_quote_cons]
      simp
  | case4 d e s hpair ih =>
      rw [List.cons_append]
      by_cases hd : d = quote
      · subst hd
        -- behind a single quote the span has ended, and another lexeme begins
        have he : e ≠ d := fun he => hpair ⟨rfl, he⟩
        have hend : Lexeme.extend? together ⟨.closed d, read ++ [d]⟩ e = none := by
          simp [Lexeme.extend?, he]
        rw [inPairs_quote_cons, lexemesFrom_quoted_quote]
        refine iff_of_false ?_ (by simp [he])
        rintro ⟨span, hspan⟩
        exact lexemesFrom_ne_singleton hend _ hspan
      · rw [inPairs_cons_of_ne hd, lexemesFrom_quoted_of_ne hd, ih]

/-- Content between the marker for bytes and two quotes is one closed literal just if it has its
quotes in pairs. -/
theorem isByteLiteral_iff : IsByteLiteral ("X'" ++ s ++ "'") ↔ InPairs '\x27' s := by
  have hmarker : Lexeme.extend? together ⟨.code, ['X']⟩ '\x27' = none := by decide
  have hread : lexemes together ("X'" ++ s ++ "'") =
      ⟨.code, ['X']⟩ :: lexemesFrom together ⟨.quoted '\x27', ['\x27']⟩ (s ++ ['\x27']) := by
    have hfirst : Lexeme.ofChar 'X' = ⟨.code, ['X']⟩ := by decide
    have hquote : Lexeme.ofChar '\x27' = ⟨.quoted '\x27', ['\x27']⟩ := by decide
    change lexemesFrom together (Lexeme.ofChar 'X') ('\x27' :: (s ++ ['\x27'])) = _
    rw [hfirst, lexemesFrom, hmarker, hquote]
  unfold IsByteLiteral
  rw [hread, ← lexemesFrom_quoted_iff ['\x27']]
  simp

end Sqlite

section Doubled

variable {quote : Char} {s : Text}

theorem length_doubled (quote : Char) (s : Text) :
    (doubled quote s).length = s.length + s.count quote := by
  induction s with
  | nil => rfl
  | cons c s ih =>
      rw [Sqlite.doubled_cons, List.length_append, ih, List.count_cons, List.length_cons]
      by_cases hc : c = quote
      · simp only [hc, if_true, beq_self_eq_true, List.length_cons, List.length_nil]
        omega
      · simp only [hc, if_false, beq_iff_eq, List.length_cons, List.length_nil]
        omega

/-- Doubling leaves just the texts without a quote as they are. -/
theorem doubled_eq_self_iff : doubled quote s = s ↔ quote ∉ s := by
  constructor
  · intro h
    have hlength := length_doubled quote s
    rw [h] at hlength
    exact List.count_eq_zero.1 (by omega)
  · exact fun h => Text.doubled_of_not_mem fun d hd heq => h (heq ▸ hd)

end Doubled

section Bound

variable {marker literal : Token} {stem : Text}

theorem Introducer.before?_of_literal (hstring : literal.kind = .string)
    (htouches : marker.touches literal = true) (hbare : marker.kind.isBare = true) :
    before? marker literal = ofUpper? marker.upper := by
  rw [before?, if_pos ⟨hstring, hbare, htouches⟩]

theorem boundText_bytes (hbytes : Introducer.before? marker literal = some .bytes) :
    boundText stem marker literal = .ok ("X" ++ quoteString literal.value) := by
  have hmarker := Introducer.not_string_of_before hbytes
  unfold boundText Parameter.extract
  rw [Parameter.bindFrom_pair hmarker, hbytes]
  simp [Parameter.bindFrom, Except.map, Parameter.Bound.after, byteLiteral, sourceText]

theorem boundText_bits (hbits : Introducer.before? marker literal = some .bits) :
    boundText stem marker literal =
      (bitNumeral literal.value).mapError fun _ => .refuse (.invalidBitLiteral literal.text) := by
  have hmarker := Introducer.not_string_of_before hbits
  unfold boundText Parameter.extract
  rw [Parameter.bindFrom_pair hmarker, hbits]
  cases bitNumeral literal.value with
  | error fault => rfl
  | ok text =>
      simp [Parameter.bindFrom, Except.map, Parameter.Bound.after, sourceText, Except.mapError]

end Bound

namespace Reading

variable {c : Cursor} {marker literal : Token} {rest : List Token}

/-- What a marked literal that comes next gives as a default. -/
theorem defaultValue_of_literal (hahead : c.ahead = marker :: literal :: rest)
    (hword : marker.isWord ["B", "X"] = true) (hstring : literal.kind = .string)
    (htouches : marker.touches literal = true) :
    (defaultValue c).1 =
      if marker.upper = ['B'] then (bitNumeral literal.value).mapError .numeral
      else .ok ("X'" ++ literal.value ++ "'") := by
  have hbehind : (c.skip 1).ahead = literal :: rest := by rw [Cursor.ahead_skip, hahead]; rfl
  rw [defaultValue_of_introducer hahead hword,
    introducedDefault_of_literal hbehind hword hstring htouches]

theorem sameOutcome_bytes_iff {value : Text} :
    SameOutcome (.ok ("X'" ++ value ++ "'")) (.ok ("X" ++ quoteString value)) ↔ '\x27' ∉ value := by
  rw [← doubled_eq_self_iff]
  simp [SameOutcome, quoteString, eq_comm]

theorem sameOutcome_bits_iff {value text : Text} :
    SameOutcome ((bitNumeral value).mapError .numeral)
        ((bitNumeral value).mapError fun _ => .refuse (.invalidBitLiteral text)) ↔
      ∃ n, SpellsBits value n ∧ IsWritable n := by
  have hok : (∃ n, SpellsBits value n ∧ IsWritable n) ↔ ∃ text, bitNumeral value = .ok text := by
    simp only [bitNumeral_eq_ok_iff]
    constructor
    · rintro ⟨n, hspells, hwritable⟩
      exact ⟨_, n, hspells, hwritable, rfl⟩
    · rintro ⟨_, n, hspells, hwritable, -⟩
      exact ⟨n, hspells, hwritable⟩
  rw [hok]
  cases bitNumeral value with
  | ok text => exact iff_of_true (.inl ⟨text, rfl, rfl⟩) ⟨text, rfl⟩
  | error fault =>
      refine iff_of_false ?_ (by simp)
      rintro (⟨_, h, -⟩ | ⟨⟨e, h, cause, rfl⟩, -⟩)
      · cases h
      · cases h

/-- A literal that a word marks as bytes or bits is read as a default as it is bound, or both refuse
it, just if it is bytes without a quote or bits with a value that can be written. The default in
bytes is always read, and is one closed literal just if its quotes come in pairs. -/
theorem defaultValue_alike_iff (stem : Text) (hahead : c.ahead = marker :: literal :: rest)
    (hword : marker.isWord ["B", "X"] = true) (hstring : literal.kind = .string)
    (htouches : marker.touches literal = true) :
    (SameOutcome (defaultValue c).1 (boundText stem marker literal) ↔
      (marker.upper = ['X'] → '\x27' ∉ literal.value) ∧
        (marker.upper = ['B'] → ∃ n, SpellsBits literal.value n ∧ IsWritable n)) ∧
    (marker.upper = ['X'] → ∃ text, (defaultValue c).1 = .ok text ∧
      (Sqlite.IsByteLiteral text ↔ Sqlite.InPairs '\x27' literal.value)) := by
  obtain ⟨hbare, hupper⟩ := Token.isWord_iff.1 hword
  have hbefore := Introducer.before?_of_literal hstring htouches hbare
  rw [defaultValue_of_literal hahead hword hstring htouches]
  rcases (show marker.upper = ['B'] ∨ marker.upper = ['X'] by simpa using hupper) with hb | hx
  · have hbits : Introducer.before? marker literal = some .bits := by rw [hbefore, hb]; rfl
    rw [boundText_bits hbits, if_pos hb, sameOutcome_bits_iff]
    simp [hb]
  · have hbytes : Introducer.before? marker literal = some .bytes := by rw [hbefore, hx]; rfl
    rw [boundText_bytes hbytes, if_neg (by simp [hx]), sameOutcome_bytes_iff]
    refine ⟨by simp [hx], fun _ => ⟨_, rfl, Sqlite.isByteLiteral_iff⟩⟩

/-- An escaped letter is no quote, and a default in bytes is written as it would be bound. -/
theorem defaultValue_alike_of_bytes :
    ∃ (tokens rest : List Token) (marker literal : Token),
      tokenize "x'\\f0' NOT NULL" = .ok tokens ∧ tokens = marker :: literal :: rest ∧
      marker.isWord ["B", "X"] = true ∧ literal.kind = .string ∧ marker.touches literal = true ∧
      (defaultValue ⟨[], tokens⟩).1 = .ok "X'f0'".toList ∧
      SameOutcome (defaultValue ⟨[], tokens⟩).1 (boundText "p" marker literal) ∧
      Sqlite.IsByteLiteral "X'f0'" := by
  obtain ⟨tokens, htokens, htest⟩ := exists_of_passes (show passes (fun tokens =>
      beginPairPasses (fun marker literal =>
        marker.isWord ["B", "X"] && literal.kind == .string && marker.touches literal &&
        marker.upper == "X".toList && literal.value == "f0".toList) tokens &&
      passes (· == "X'f0'".toList) (defaultValue ⟨[], tokens⟩).1)
      (tokenize "x'\\f0' NOT NULL") = true by decide +kernel)
  obtain ⟨hpair, hdefault⟩ := Bool.and_eq_true_iff.1 htest
  obtain ⟨marker, literal, rest, rfl, hboth⟩ := exists_of_beginPairPasses hpair
  simp only [Bool.and_eq_true, beq_iff_eq] at hboth
  obtain ⟨⟨⟨⟨hword, hstring⟩, htouches⟩, hx⟩, hvalue⟩ := hboth
  obtain ⟨text, hdefault, htext⟩ := exists_of_passes hdefault
  obtain rfl := eq_of_beq htext
  have hall := defaultValue_alike_iff "p" (c := ⟨[], marker :: literal :: rest⟩) rfl hword
    hstring htouches
  have hquoted : Sqlite.IsByteLiteral "X'f0'" := by
    obtain ⟨text, htext, hclosed⟩ := hall.2 hx
    obtain rfl := Except.ok.inj (hdefault.symm.trans htext)
    refine hclosed.2 ⟨"f0".toList, ?_⟩
    rw [hvalue]
    decide
  exact ⟨_, rest, marker, literal, htokens, rfl, hword, hstring, htouches, hdefault,
    hall.1.2 ⟨fun _ => by rw [hvalue]; decide, fun hb => by simp [hx] at hb⟩, hquoted⟩

/-- The quote in a default in bytes is written once, and closes the literal before its end. -/
theorem defaultValue_not_alike :
    ∃ (tokens : List Token) (marker literal : Token),
      tokenize "x'4''1'" = .ok tokens ∧ tokens = [marker, literal] ∧
      marker.isWord ["B", "X"] = true ∧ literal.kind = .string ∧ marker.touches literal = true ∧
      (defaultValue ⟨[], tokens⟩).1 = .ok "X'4'1'".toList ∧
      boundText "p" marker literal = .ok "X'4''1'".toList ∧
      ¬ Sqlite.IsByteLiteral "X'4'1'" := by
  obtain ⟨tokens, htokens, htest⟩ := exists_of_passes (show passes (fun tokens =>
      tokens.length == 2 && beginPairPasses (fun marker literal =>
        marker.isWord ["B", "X"] && literal.kind == .string && marker.touches literal &&
        passes (· == "X'4''1'".toList) (boundText "p" marker literal)) tokens &&
      passes (· == "X'4'1'".toList) (defaultValue ⟨[], tokens⟩).1)
      (tokenize "x'4''1'") = true by decide +kernel)
  simp only [Bool.and_eq_true, beq_iff_eq] at htest
  obtain ⟨⟨hlength, hpair⟩, hdefault⟩ := htest
  obtain ⟨marker, literal, rest, rfl, hboth⟩ := exists_of_beginPairPasses hpair
  obtain rfl : rest = [] := by simpa using hlength
  simp only [Bool.and_eq_true, beq_iff_eq] at hboth
  obtain ⟨⟨⟨hword, hstring⟩, htouches⟩, hbound⟩ := hboth
  obtain ⟨_, hdefault, htext⟩ := exists_of_passes hdefault
  obtain rfl := eq_of_beq htext
  obtain ⟨_, hbound, htext⟩ := exists_of_passes hbound
  obtain rfl := eq_of_beq htext
  have hopen : ¬ Sqlite.IsByteLiteral ("X'" ++ "4'1".toList ++ "'") := by
    rw [Sqlite.isByteLiteral_iff]
    change ¬ Sqlite.InPairs '\x27' ['4', '\x27', '1']
    rw [Sqlite.inPairs_cons_of_ne (by decide), Sqlite.inPairs_quote_cons]
    simp
  exact ⟨_, marker, literal, htokens, rfl, hword, hstring, htouches, hdefault, hbound, hopen⟩

end Reading

end Restate
