import Mathlib.Data.List.TakeWhile
import Restate.Proofs.Lexing.Tiling

/-!
# How tokens are spelled

What the lexer can read at the head of a text, case by case, and from it what the text of a token
looks like by its kind.
-/

namespace Restate

open Text

namespace Lexeme

/-- What the lexer reads at the head of the text `c :: s`: by which reader, as which kind, with
which cut. -/
inductive Reads (c : Char) (s : Text) : TokenKind → Cut → Prop where
  | blanks : isBlank c = true → Reads c s .whitespace (Cut.leading isBlank (c :: s))
  | line {cut : Cut} : lineComment? (c :: s) = some cut → Reads c s .comment cut
  | block {body : Text} {cut : Cut} : c = '/' → s = '*' :: body → throughClose body = some cut →
      Reads c s .comment (cut.after ['/', '*'])
  | name {cut : Cut} : c = backtick → quoted? c s = some cut → Reads c s .quotedIdentifier cut
  | literal {cut : Cut} : c = '\x27' ∨ c = '"' → quoted? c s = some cut → Reads c s .string cut
  | number {cut : Cut} : number (c :: s) = .ok (some cut) → Reads c s .number cut
  | digits {cut : Cut} : digitName? (c :: s) = some cut → Reads c s .identifier cut
  | keyword {cut : Cut} : word? (c :: s) = some cut → Reads c s .keyword cut
  | word {cut : Cut} : word? (c :: s) = some cut → Reads c s .identifier cut
  | atName {cut : Cut} : atName? (c :: s) = some cut → Reads c s .identifier cut
  | position : c = '?' → Reads c s .placeholder ([c], s)
  | named {cut : Cut} : namedPlaceholder? (c :: s) = some cut → Reads c s .placeholder cut
  | sign {cut : Cut} : operator? (c :: s) = some cut → Reads c s .operator cut
  | mark : c ∈ punctuation → Reads c s .punctuation ([c], s)

theorem reads_of_symbol {c : Char} {s : Text} {kind : TokenKind} {cut : Cut}
    (h : symbol c s = .ok (kind, cut)) : Reads c s kind cut := by
  unfold symbol at h
  split at h
  · next hw =>
      cases h
      split
      · exact .keyword hw
      · exact .word hw
  · split at h
    · next hv =>
        cases h
        exact .atName hv
    · split at h
      · next hc =>
          cases h
          exact .position hc
      · split at h
        · next hp =>
            cases h
            exact .named hp
        · split at h
          · next ho =>
              cases h
              exact .sign ho
          · split at h
            · next hm =>
                cases h
                exact .mark (by simpa using hm)
            · simp at h

theorem reads_of_numeric {afterName : Bool} {c : Char} {s : Text} {kind : TokenKind} {cut : Cut}
    (h : numeric afterName c s = .ok (kind, cut)) : Reads c s kind cut := by
  unfold numeric at h
  split at h
  · exact reads_of_symbol h
  · split at h
    · simp at h
    · next hn =>
        cases h
        exact .number hn
    · split at h
      · next hd =>
          cases h
          exact .digits hd
      · exact reads_of_symbol h

section Foreign

/-- The character is no part of a name or of a number. -/
structure Foreign (x : Char) : Prop where
  name : isNameChar x = false
  decimal : isDecimal x = false
  digitSign : isDigitSign x = false
  hexDigit : isHexDigit x = false
  sign : x ∉ ['.', '+', '-']

theorem foreign_colon : Foreign ':' := by
  refine ⟨?_, ?_, ?_, ?_, ?_⟩ <;> decide

variable {x : Char}

theorem ne_of_class {f : Char → Bool} (hf : f x = false) {c : Char} (hc : f c = true) : x ≠ c := by
  rintro rfl
  simp [hf] at hc

theorem not_mem_leading {f : Char → Bool} (hf : f x = false) (s : Text) :
    x ∉ (Cut.leading f s).1 := by
  intro hmem
  have := List.mem_takeWhile_imp hmem
  simp [hf] at this

namespace Foreign

variable {s : Text} {cut : Cut} (hx : Foreign x)
include hx

theorem ne_of_sign {c : Char} (hc : c ∈ ['.', '+', '-']) : x ≠ c := by
  rintro rfl
  exact hx.sign hc

theorem not_mem_hexadecimal (h : hexadecimal? s = some cut) : x ∉ cut.1 := by
  unfold hexadecimal? at h
  split at h
  · next y s =>
      split at h
      · next hy =>
          dsimp only at h
          split at h
          · simp at h
          · cases h
            have hzero : x ≠ '0' := ne_of_class hx.name (by decide)
            have hname : isNameChar y = true := by
              rcases hy with rfl | rfl
              · decide
              · decide
            have hy : x ≠ y := ne_of_class hx.name hname
            simp only [List.mem_cons, not_or]
            exact ⟨hzero, hy, not_mem_leading hx.hexDigit s⟩
      · simp at h
  · simp at h

theorem not_mem_mantissa (h : mantissa? s = some cut) : x ∉ cut.1 := by
  have hpoint : x ≠ '.' := hx.ne_of_sign (by simp)
  have hs := not_mem_leading hx.decimal s
  unfold mantissa? at h
  split at h
  · next rest heq =>
      dsimp only at h
      split at h
      · simp at h
      · cases h
        simpa [hpoint] using not_mem_leading hx.decimal rest
  · simp at h
  · next digits rest hne heq =>
      rw [heq] at hs
      cases h
      simpa [Cut.after, hpoint] using ⟨hs, not_mem_leading hx.decimal rest⟩
  · next digits rest hne _ heq =>
      rw [heq] at hs
      cases h
      exact hs

theorem not_mem_exponent (s : Text) : x ∉ (exponent s).1 := by
  unfold exponent
  split
  · next e sign s =>
      split
      · next he =>
          have hname : isNameChar e = true := by
            rcases he with rfl | rfl
            · decide
            · decide
          have he : x ≠ e := ne_of_class hx.name hname
          split
          · next hsign =>
              have hsign : x ≠ sign := hx.ne_of_sign (by rcases hsign with rfl | rfl <;> simp)
              dsimp only
              split
              · simp
              · simp only [List.mem_cons, not_or]
                exact ⟨he, hsign, not_mem_leading hx.decimal s⟩
          · dsimp only
            split
            · simp
            · simp only [List.mem_cons, not_or]
              exact ⟨he, not_mem_leading hx.decimal _⟩
      · simp
  · simp

theorem not_mem_number (h : number s = .ok (some cut)) : x ∉ cut.1 := by
  unfold number at h
  split at h
  · next hex =>
      cases h
      exact hx.not_mem_hexadecimal hex
  · split at h
    · simp at h
    · next text rest hdecimal =>
        obtain ⟨cut', hmantissa, hcut⟩ := Option.map_eq_some_iff.1 hdecimal
        have htext : x ∉ text := by
          obtain rfl : cut'.1 ++ (exponent cut'.2).1 = text := congrArg Prod.fst hcut
          simpa using ⟨hx.not_mem_mantissa hmantissa, hx.not_mem_exponent cut'.2⟩
        split at h
        · simp at h
        · unfold afterNumber at h
          split at h
          · cases h
            exact htext
          · split at h
            · simp at h
            · split at h
              · simp at h
              · split at h
                · split at h
                  · simp at h
                  · simp at h
                · cases h
                  exact htext

theorem not_mem_digitName (h : digitName? s = some cut) : x ∉ cut.1 := by
  unfold digitName? at h
  split at h
  · simp at h
  · next c s =>
      split at h
      · next hc =>
          cases h
          have hc := ne_of_class hx.digitSign hc
          simpa [Cut.after, hc] using not_mem_leading hx.name s
      · simp at h

theorem not_mem_word (h : word? s = some cut) : x ∉ cut.1 := by
  unfold word? at h
  split at h
  · simp at h
  · next c s =>
      split at h
      · next hc =>
          cases h
          have hname : isNameChar c = true :=
            Bool.or_eq_true_iff.2 (.inl (Bool.and_eq_true_iff.1 hc).1)
          have hc := ne_of_class hx.name hname
          simpa [Cut.after, hc] using not_mem_leading hx.name s
      · simp at h

end Foreign

end Foreign

/-- A delimiter around a variable's name. -/
def IsDelimiter (c : Char) : Prop :=
  c = backtick ∨ c = '\x27' ∨ c = '"'

/-- A variable's name is bare, or stands between two delimiters and holds none. -/
theorem variableName_cases {s : Text} {cut : Cut} (h : variableName? s = some cut) :
    (∀ c ∈ cut.1, isVariableChar c = true) ∨
      ∃ quote name, IsDelimiter quote ∧ (∀ c ∈ name, c ≠ quote) ∧
        cut.1 = quote :: name ++ [quote] := by
  unfold variableName? at h
  split at h
  · simp at h
  · next c s =>
      split at h
      · cases h
        exact .inl fun d hd => List.mem_takeWhile_imp hd
      · split at h
        · next hquote =>
            split at h
            · next name d rest heq =>
                cases h
                have htake : s.takeWhile (· != c) = name := congrArg Prod.fst heq
                have hdrop : s.dropWhile (· != c) = d :: rest := congrArg Prod.snd heq
                have hname : ∀ e ∈ name, e ≠ c := by
                  intro e he
                  rw [← htake] at he
                  simpa using List.mem_takeWhile_imp he
                obtain rfl : d = c := by
                  have := List.head?_dropWhile_not (· != c) s
                  rw [hdrop] at this
                  simpa using this
                exact .inr ⟨d, name, hquote, hname, rfl⟩
            · simp at h
        · simp at h

theorem placeholder_name {s : Text} {cut : Cut} (h : namedPlaceholder? s = some cut) :
    ∃ name, cut.1 = ':' :: name ∧ name ≠ [] ∧ ∀ c ∈ name, isWordChar c = true := by
  unfold namedPlaceholder? at h
  split at h
  · next c s =>
      split at h
      · next hstart =>
          cases h
          refine ⟨c :: s.takeWhile isWordChar, rfl, by simp, ?_⟩
          intro d hd
          rcases List.mem_cons.1 hd with rfl | hd
          · exact (Bool.and_eq_true_iff.1 hstart).1
          · exact List.mem_takeWhile_imp hd
      · simp at h
  · simp at h

end Lexeme

/-- Every token comes from one of the readers. -/
theorem reads_of_lexeme {afterName : Bool} {c : Char} {s : Text} {kind : TokenKind} {cut : Cut}
    (h : lexeme afterName c s = .ok (kind, cut)) : Lexeme.Reads c s kind cut := by
  unfold lexeme at h
  split at h
  · next hc =>
      cases h
      exact .blanks hc
  · split at h
    · next hl =>
        cases h
        exact .line hl
    · split at h
      · split at h
        · next hb =>
            cases h
            exact .block rfl rfl hb
        · simp at h
      · split at h
        · next hc =>
            split at h
            · next hq =>
                cases h
                exact .name hc hq
            · simp at h
        · split at h
          · next hc =>
              split at h
              · next hq =>
                  cases h
                  exact .literal hc hq
              · simp at h
          · split at h
            · exact Lexeme.reads_of_numeric h
            · exact Lexeme.reads_of_symbol h

/-- A token of white space holds blanks only. -/
theorem Token.IsRead.blank {t : Token} (h : t.IsRead) (hkind : t.kind = .whitespace) :
    ∀ c ∈ t.text, isBlank c = true := by
  obtain ⟨_, c, s, rest, hlex⟩ := h
  have hreads := reads_of_lexeme hlex
  rw [hkind] at hreads
  generalize hcut : (t.text, rest) = cut at hreads
  cases hreads with
  | blanks _ =>
      intro d hd
      rw [show t.text = (c :: s).takeWhile isBlank from congrArg Prod.fst hcut] at hd
      exact List.mem_takeWhile_imp hd

/-- A comment begins with a hash, or begins with two hyphens and stays on its line, or is a block
through its first end. -/
def Lexeme.IsComment (text : Text) : Prop :=
  text.head? = some '#' ∨
    (∃ s, text = '-' :: '-' :: s ∧ '\n' ∉ s) ∨
    (∃ body cut, throughClose body = some cut ∧ text = '/' :: '*' :: cut.1)

theorem Token.IsRead.comment {t : Token} (h : t.IsRead) (hkind : t.kind = .comment) :
    Lexeme.IsComment t.text := by
  obtain ⟨_, c, s, rest, hlex⟩ := h
  have hreads := reads_of_lexeme hlex
  rw [hkind] at hreads
  generalize hcut : (t.text, rest) = cut at hreads
  have htext : t.text = cut.1 := congrArg Prod.fst hcut
  cases hreads with
  | line hline =>
      unfold Lexeme.lineComment? at hline
      split at hline
      · cases hline
        exact .inl (by rw [htext]; rfl)
      · split at hline
        · next body _ =>
            cases hline
            refine .inr (.inl ⟨_, htext, ?_⟩)
            intro hmem
            simpa using List.mem_takeWhile_imp hmem
        · simp at hline
      · simp at hline
  | block hc hs hclose => exact .inr (.inr ⟨_, _, hclose, htext⟩)

end Restate
