import Restate.Proofs.Lexing.Stretch
import Restate.Proofs.Text.Blank

/-!
# Digits without a value

A digit sign such as `²` looks like a digit, but no number can be made of it. Main statement: the
lexer stops for want of a value just where such a sign stands in the place of a number
(`tokenize_valueless_iff`).
-/

namespace Restate

open Text

/-- A digit sign that is no decimal digit. -/
def isValueless (c : Char) : Bool :=
  isDigitSign c && !isDecimal c

/-- Whether a sign without a value stands where a number begins: at once, or behind a point that
does not continue a name. -/
def opensValueless (afterName : Bool) : Text → Bool
  | [] => false
  | '.' :: c :: _ => !afterName && isValueless c
  | c :: _ => isValueless c

namespace Lexeme

variable {afterName : Bool} {c : Char} {s : Text}

theorem mantissa_eq_none_iff :
    mantissa? (c :: s) = none ↔
      isDecimal c = false ∧ (c = '.' → ∀ d ∈ s.head?, isDecimal d = false) := by
  cases hc : isDecimal c with
  | true =>
      have hdigits : (Cut.leading isDecimal (c :: s)).1 ≠ [] := by simp [Cut.leading, hc]
      refine iff_of_false ?_ (by simp)
      unfold mantissa?
      split
      · next heq => exact (hdigits (by rw [heq])).elim
      · next heq => exact (hdigits (by rw [heq])).elim
      · simp
      · simp
  | false =>
      have hlead : Cut.leading isDecimal (c :: s) = ([], c :: s) := by simp [Cut.leading, hc]
      by_cases hpoint : c = '.'
      · subst hpoint
        unfold mantissa?
        rw [hlead]
        cases s with
        | nil => simp [Cut.leading]
        | cons d s =>
            cases hd : isDecimal d with
            | true => simp [Cut.leading, hd]
            | false => simp [Cut.leading, hd]
      · simp [mantissa?, hlead, hpoint]

theorem decimal_of_hexadecimal {cut : Cut} (h : hexadecimal? s = some cut) : decimal? s ≠ none := by
  have hzero : isDecimal '0' = true := by decide
  unfold hexadecimal? at h
  split at h
  · rw [decimal?, Ne, Option.map_eq_none_iff, mantissa_eq_none_iff, hzero]
    simp
  · simp at h

theorem afterNumber_ne_valueless (number rest : Text) :
    afterNumber number rest ≠ .error .digitWithoutValue := by
  unfold afterNumber
  repeat' split
  all_goals simp

theorem number_valueless_iff :
    number s = .error .digitWithoutValue ↔ decimal? s = none := by
  unfold number
  cases hhex : hexadecimal? s with
  | some cut => simp [decimal_of_hexadecimal hhex]
  | none =>
      cases hdecimal : decimal? s with
      | none => simp
      | some cut =>
          refine iff_of_false ?_ (by simp)
          dsimp only
          split
          · simp
          · exact afterNumber_ne_valueless cut.1 cut.2

theorem symbol_ne_valueless : symbol c s ≠ .error .digitWithoutValue := by
  unfold symbol
  repeat' split
  all_goals simp

theorem numeric_valueless_iff :
    numeric afterName c s = .error .digitWithoutValue ↔
      ¬ (c = '.' ∧ afterName = true) ∧ decimal? (c :: s) = none := by
  unfold numeric
  split
  · next hname => simp [hname, symbol_ne_valueless]
  · next hname =>
      rw [← number_valueless_iff]
      cases hnumber : number (c :: s) with
      | error fault => simp [hname]
      | ok found =>
          cases found with
          | some cut => simp
          | none =>
              cases digitName? (c :: s) with
              | some cut => simp
              | none => simp [symbol_ne_valueless]

end Lexeme

section

variable {afterName : Bool} {c : Char} {s : Text}

/-- What may begin a number is read as one. -/
theorem lexeme_numeric (h : isDigitSign c = true ∨ Lexeme.pointDigit (c :: s) = true) :
    lexeme afterName c s = Lexeme.numeric afterName c s := by
  have hclass : isDigitSign c || c == '.' := by
    rcases h with h | h
    · simp [h]
    · unfold Lexeme.pointDigit at h
      split at h
      · next heq => simp [(List.cons.inj heq).1]
      · simp at h
  have hblanks : blanks.all (fun c => !(isDigitSign c || c == '.')) = true := by
    decide +kernel
  have hblank : isBlank c = false := by
    cases hblank : isBlank c with
    | false => rfl
    | true => simp [not_of_isBlank hblanks hblank] at hclass
  have hne : ∀ {d : Char}, (isDigitSign d || d == '.') = false → c ≠ d := by
    rintro d hd rfl
    simp [hd] at hclass
  have hline : Lexeme.lineComment? (c :: s) = none :=
    Lexeme.lineComment_none (hne (by decide)) fun hc => absurd hc (hne (by decide))
  rw [lexeme_code hblank hline fun hc => absurd hc (hne (by decide)), if_neg (hne (by decide)),
    if_neg, if_pos (by simpa using h)]
  rintro (hquote | hquote)
  · exact hne (by decide) hquote
  · exact hne (by decide) hquote

theorem opensValueless_iff :
    opensValueless afterName (c :: s) = true ↔
      (isDigitSign c = true ∨ Lexeme.pointDigit (c :: s) = true) ∧
        ¬ (c = '.' ∧ afterName = true) ∧ Lexeme.decimal? (c :: s) = none := by
  have hdecimal : Lexeme.decimal? (c :: s) = none ↔ Lexeme.mantissa? (c :: s) = none :=
    Option.map_eq_none_iff
  rw [hdecimal, Lexeme.mantissa_eq_none_iff]
  by_cases hpoint : c = '.'
  · subst hpoint
    have hdot : isDigitSign '.' = false := by decide
    have hdot' : isDecimal '.' = false := by decide
    cases s with
    | nil => simp [opensValueless, isValueless, Lexeme.pointDigit, hdot]
    | cons d s =>
        simp only [opensValueless, isValueless, Lexeme.pointDigit, hdot, hdot', List.head?_cons]
        grind
  · simp [opensValueless, isValueless, Lexeme.pointDigit, hpoint]

/-- The lexer finds no value just where a sign without one opens the text. -/
theorem lexeme_valueless_iff :
    lexeme afterName c s = .error .digitWithoutValue ↔
      opensValueless afterName (c :: s) = true := by
  rw [opensValueless_iff]
  by_cases h : isDigitSign c = true ∨ Lexeme.pointDigit (c :: s) = true
  · rw [lexeme_numeric h, Lexeme.numeric_valueless_iff]
    simp [h]
  · refine iff_of_false ?_ fun hopens => h hopens.1
    unfold lexeme
    split
    · simp
    · split
      · simp
      · split
        · split
          · simp
          · simp
        · split
          · split
            · simp
            · simp
          · split
            · split
              · simp
              · simp
            · rw [if_neg (by simpa using h)]
              exact Lexeme.symbol_ne_valueless

end

theorem lexFrom_valueless_iff (offset : Nat) {afterName : Bool} {s : Text} :
    (∃ p, (lexFrom offset afterName s).fault = some (.digitWithoutValue, p)) ↔
      ∃ ts rest, Lexes afterName s ts rest ∧
        opensValueless (ts.foldl Token.nameAfter afterName) rest = true := by
  fun_induction lexFrom offset afterName s with
  | case1 =>
      refine iff_of_false (by simp) ?_
      rintro ⟨ts, rest, hlexes, hopens⟩
      cases hlexes
      simp [opensValueless] at hopens
  | case2 offset afterName c more fault hlex =>
      constructor
      · rintro ⟨p, hp⟩
        cases hp
        exact ⟨[], c :: more, .done, lexeme_valueless_iff.1 hlex⟩
      · rintro ⟨ts, rest, hlexes, hopens⟩
        cases hlexes with
        | done =>
            have hvalueless := lexeme_valueless_iff.2 hopens
            obtain rfl := Except.error.inj (hlex.symm.trans hvalueless)
            exact ⟨offset, rfl⟩
        | token hread _ => cases hlex.symm.trans hread
  | case3 offset afterName c more kind text rest hlex token lexed ih =>
      rw [ih]
      constructor
      · rintro ⟨ts, rest, hlexes, hopens⟩
        exact ⟨token :: ts, rest, .token hlex hlexes, hopens⟩
      · rintro ⟨ts, left, hlexes, hopens⟩
        cases hlexes with
        | done => cases hlex.symm.trans (lexeme_valueless_iff.2 hopens)
        | @token _ _ _ _ _ t ts hread hlexes =>
            obtain ⟨hkind, hcut⟩ := Prod.mk.inj (Except.ok.inj (hread.symm.trans hlex))
            obtain ⟨htext, rfl⟩ := Prod.mk.inj hcut
            subst hkind htext
            exact ⟨ts, left, hlexes, hopens⟩

/-- A statement without tokens for want of a value. -/
theorem tokenize_valueless_iff {sql : Text} :
    (∃ p, tokenize sql = .error (.lexical .digitWithoutValue p sql)) ↔
      ∃ ts rest, Lexes false sql ts rest ∧
        opensValueless (ts.foldl Token.nameAfter false) rest = true := by
  rw [← lexFrom_valueless_iff 0, tokenize]
  cases (lexFrom 0 false sql).fault with
  | none => simp
  | some found => simp [Prod.ext_iff]

end Restate
