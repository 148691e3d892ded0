import Restate.Proofs.Lexing.Writing
import Restate.Proofs.Text.Digits

/-!
# The grammar of numbers

A number is written in hexadecimal, or it is a mantissa with at most one point and perhaps an
exponent. Digits that run into a name are no number but the beginning of a name, unless what they
run into makes them a broken number. Main statement: a text is one number, or one name that begins
with a digit, just by its grammar (`tokenize_numeral_iff`).
-/

namespace Restate

open Text

/-- Decimal digits of whatever script, one or more. -/
def IsDigits (s : Text) : Prop :=
  s ≠ [] ∧ ∀ c ∈ s, isDecimal c = true

/-- Digits with at most one point before, behind or among them. -/
inductive IsMantissa : Text → Prop where
  | whole {digits : Text} : IsDigits digits → IsMantissa digits
  | pointed {digits fraction : Text} :
      IsDigits digits → (∀ c ∈ fraction, isDecimal c = true) →
        IsMantissa (digits ++ '.' :: fraction)
  | fraction {digits : Text} : IsDigits digits → IsMantissa ('.' :: digits)

/-- A letter `e` of either case, perhaps a sign, and digits. -/
inductive IsExponent : Text → Prop where
  | unsigned {e : Char} {digits : Text} :
      e = 'e' ∨ e = 'E' → IsDigits digits → IsExponent (e :: digits)
  | signed {e sign : Char} {digits : Text} :
      e = 'e' ∨ e = 'E' → sign = '+' ∨ sign = '-' → IsDigits digits →
        IsExponent (e :: sign :: digits)

inductive IsDecimalNumeral : Text → Prop where
  | plain {mantissa : Text} : IsMantissa mantissa → IsDecimalNumeral mantissa
  | scientific {mantissa exponent : Text} :
      IsMantissa mantissa → IsExponent exponent → IsDecimalNumeral (mantissa ++ exponent)

inductive IsNumeral : Text → Prop where
  | hexadecimal {x : Char} {digits : Text} :
      x = 'x' ∨ x = 'X' → digits ≠ [] → (∀ c ∈ digits, isHexDigit c = true) →
        IsNumeral ('0' :: x :: digits)
  | decimal {s : Text} : IsDecimalNumeral s → IsNumeral s

/-- Name characters throughout, which neither begin like a hexadecimal number nor are digits alone,
nor go on behind their leading digits like an exponent. -/
structure IsDigitName (s : Text) : Prop where
  nameChars : ∀ c ∈ s, isNameChar c = true
  notHexadecimal : ∀ x more, s = '0' :: x :: more → x ≠ 'x' ∧ x ≠ 'X'
  notDigits : s.dropWhile isDecimal ≠ []
  notExponent : ∀ e d more, s.dropWhile isDecimal = e :: d :: more → e = 'e' ∨ e = 'E' →
    isDecimal d = false

variable {s mantissa rest : Text} {c : Char} {a : Bool}

theorem IsDigits.exists_cons (h : IsDigits s) : ∃ c t, s = c :: t ∧ isDecimal c = true := by
  obtain ⟨c, t, rfl⟩ := List.exists_cons_of_ne_nil h.1
  exact ⟨c, t, rfl, h.2 c List.mem_cons_self⟩

theorem IsExponent.head (h : IsExponent s) : ∃ e t, s = e :: t ∧ (e = 'e' ∨ e = 'E') := by
  cases h with
  | unsigned he _ => exact ⟨_, _, rfl, he⟩
  | signed he _ _ => exact ⟨_, _, rfl, he⟩

theorem not_isDecimal_of_letter {e : Char} (he : e = 'e' ∨ e = 'E') :
    isDecimal e = false ∧ e ≠ '.' := by
  rcases he with rfl | rfl
  · decide
  · decide

namespace Lexeme

section Mantissa

theorem leading_digits (hs : IsDigits s) (hrest : ∀ c ∈ rest.head?, isDecimal c = false) :
    Cut.leading isDecimal (s ++ rest) = (s, rest) :=
  Cut.leading_of_forall hs.2 hrest

/-- A mantissa is read to its end where neither a digit nor a point follows. -/
theorem mantissa_append_of_isMantissa (h : IsMantissa mantissa)
    (hrest : ∀ c ∈ rest.head?, isDecimal c = false ∧ c ≠ '.') :
    mantissa? (mantissa ++ rest) = some (mantissa, rest) := by
  have hpoint : isDecimal '.' = false := by decide
  have hdigit : ∀ c ∈ rest.head?, isDecimal c = false := fun c hc => (hrest c hc).1
  cases h with
  | whole hdigits =>
      have hlead := leading_digits hdigits hdigit
      obtain ⟨c, t, rfl, -⟩ := hdigits.exists_cons
      rw [mantissa?, hlead]
      cases rest with
      | nil => rfl
      | cons d rest =>
          have hd : d ≠ '.' := (hrest d rfl).2
          simp [hd]
  | @pointed digits fraction hdigits hfraction =>
      have hlead : Cut.leading isDecimal (digits ++ '.' :: fraction ++ rest) =
          (digits, '.' :: (fraction ++ rest)) := by
        rw [List.append_assoc]
        exact leading_digits hdigits (by simpa using hpoint)
      obtain ⟨c, t, rfl, -⟩ := hdigits.exists_cons
      rw [mantissa?, hlead]
      simp [Cut.leading_of_forall hfraction hdigit, Cut.after]
  | @fraction digits hdigits =>
      have hlead : Cut.leading isDecimal ('.' :: digits ++ rest) =
          ([], '.' :: (digits ++ rest)) := by
        simp [Cut.leading, hpoint]
      rw [mantissa?, hlead]
      simp [leading_digits hdigits hdigit, hdigits.1]

theorem isMantissa_of_mantissa {cut : Cut} (h : mantissa? s = some cut) : IsMantissa cut.1 := by
  have hdecimal : ∀ t, ∀ c ∈ (Cut.leading isDecimal t).1, isDecimal c = true :=
    fun t c hc => List.mem_takeWhile_imp hc
  have hs := hdecimal s
  unfold mantissa? at h
  split at h
  · next rest _ =>
      dsimp only at h
      split at h
      · cases h
      · next hne =>
          cases h
          exact .fraction ⟨by simpa using hne, hdecimal rest⟩
  · cases h
  · next digits rest hne heq =>
      cases h
      rw [heq] at hs
      have htext : ((Cut.leading isDecimal rest).after (digits ++ ['.'])).1 =
          digits ++ '.' :: (Cut.leading isDecimal rest).1 := by
        simp [Cut.after]
      rw [htext]
      exact .pointed ⟨fun hnil => hne hnil, hs⟩ (hdecimal rest)
  · next digits rest hnil _ heq =>
      cases h
      rw [heq] at hs
      exact .whole ⟨fun hdigits => hnil hdigits, hs⟩

end Mantissa

section Exponent

theorem exponent_of_isExponent (h : IsExponent s) : exponent s = (s, []) := by
  cases h with
  | @unsigned e digits he hdigits =>
      have hlead := Cut.leading_self hdigits.2
      obtain ⟨d, t, rfl, hd⟩ := hdigits.exists_cons
      have hsign : ¬ (d = '+' ∨ d = '-') := by
        rintro (rfl | rfl)
        · revert hd
          decide
        · revert hd
          decide
      rw [exponent, if_pos he, if_neg hsign, hlead]
      rfl
  | @signed e sign digits he hsign hdigits =>
      rw [exponent, if_pos he, if_pos hsign, Cut.leading_self hdigits.2]
      simp [hdigits.1]

/-- What is read as an exponent is one, or nothing is read. -/
theorem exponent_cases (s : Text) : exponent s = ([], s) ∨ IsExponent (exponent s).1 := by
  have hdecimal : ∀ t, ∀ c ∈ (Cut.leading isDecimal t).1, isDecimal c = true :=
    fun t c hc => List.mem_takeWhile_imp hc
  unfold exponent
  split
  · next e sign s =>
      split
      · next he =>
          split
          · next hsign =>
              dsimp only
              split
              · exact .inl rfl
              · next hne => exact .inr (.signed he hsign ⟨by simpa using hne, hdecimal s⟩)
          · dsimp only
            split
            · exact .inl rfl
            · next hne =>
                exact .inr (.unsigned he ⟨by simpa using hne, hdecimal (sign :: s)⟩)
      · exact .inl rfl
  · exact .inl rfl

end Exponent

theorem isDecimalNumeral_of_decimal {cut : Cut} (h : decimal? s = some cut) :
    IsDecimalNumeral cut.1 := by
  obtain ⟨cut, hmantissa, rfl⟩ := Option.map_eq_some_iff.1 h
  have hm := isMantissa_of_mantissa hmantissa
  rcases exponent_cases cut.2 with hexponent | hexponent
  · have htext : ((exponent cut.2).after cut.1).1 = cut.1 := by simp [hexponent, Cut.after]
    rw [htext]
    exact .plain hm
  · exact .scientific hm hexponent

theorem decimal_eq_some_iff : decimal? s = some (s, []) ↔ IsDecimalNumeral s := by
  constructor
  · exact isDecimalNumeral_of_decimal
  · intro h
    cases h with
    | plain hm =>
        have hmantissa : mantissa? (s ++ []) = some (s, []) :=
          mantissa_append_of_isMantissa hm (by simp)
        rw [List.append_nil] at hmantissa
        rw [decimal?, hmantissa]
        simp [exponent, Cut.after]
    | @scientific mantissa e hm he =>
        obtain ⟨letter, t, rfl, hletter⟩ := he.head
        have hmantissa : mantissa? (mantissa ++ letter :: t) = some (mantissa, letter :: t) := by
          refine mantissa_append_of_isMantissa hm ?_
          rintro _ ⟨⟩
          exact not_isDecimal_of_letter hletter
        rw [decimal?, hmantissa]
        simp [exponent_of_isExponent he, Cut.after]

/-- What may follow a number is not touched, and it does not go on with a name. -/
theorem afterNumber_eq_some {text : Text} {cut : Cut}
    (h : afterNumber text rest = .ok (some cut)) :
    (text, rest) = cut ∧ nameFollows rest = false := by
  unfold afterNumber at h
  split at h
  · cases h
    exact ⟨rfl, rfl⟩
  · split at h
    · cases h
    · split at h
      · cases h
      · split at h
        · split at h
          · cases h
          · cases h
        · next hname =>
            cases h
            exact ⟨rfl, Bool.eq_false_iff.2 hname⟩

section Hexadecimal

/-- What is read in hexadecimal does not go on with a name. -/
theorem hexadecimal_spec {cut : Cut} (h : hexadecimal? s = some cut) :
    (∃ x digits, cut.1 = '0' :: x :: digits ∧ (x = 'x' ∨ x = 'X') ∧ digits ≠ [] ∧
      ∀ c ∈ digits, isHexDigit c = true) ∧ nameFollows cut.2 = false := by
  unfold hexadecimal? at h
  split at h
  · next x s =>
      split at h
      · next hx =>
          dsimp only at h
          split at h
          · cases h
          · next hnot =>
              cases h
              obtain ⟨hne, hfollows⟩ := not_or.1 (mt Bool.or_eq_true_iff.2 hnot)
              exact ⟨⟨x, _, rfl, hx, by simpa using hne, fun c hc => List.mem_takeWhile_imp hc⟩,
                Bool.eq_false_iff.2 hfollows⟩
      · cases h
  · cases h

theorem hexadecimal_eq_some_iff :
    hexadecimal? s = some (s, []) ↔
      ∃ x digits, s = '0' :: x :: digits ∧ (x = 'x' ∨ x = 'X') ∧ digits ≠ [] ∧
        ∀ c ∈ digits, isHexDigit c = true := by
  constructor
  · exact fun h => (hexadecimal_spec h).1
  · rintro ⟨x, digits, rfl, hx, hne, hdigits⟩
    rw [hexadecimal?, if_pos hx, Cut.leading_self hdigits]
    simp [hne, nameFollows]

/-- Behind its first digit a decimal numeral goes on with a digit, a point or an exponent. -/
theorem opensHexadecimal_of_isDecimalNumeral (h : IsDecimalNumeral s) :
    opensHexadecimal s = false := by
  rw [← Bool.not_eq_true, opensHexadecimal_iff]
  rintro ⟨x, t, rfl, hx⟩
  have hdecimal : isDecimal x = false := by
    rcases hx with rfl | rfl
    · decide
    · decide
  have hother : x ≠ '.' ∧ x ≠ 'e' ∧ x ≠ 'E' := by
    rcases hx with rfl | rfl
    · decide
    · decide
  have hread := decimal_eq_some_iff.2 h
  have hdigit : isDecimal '0' = true := by decide
  have hzero : IsMantissa ['0'] := .whole ⟨by simp, by simpa using hdigit⟩
  have hmantissa : mantissa? (['0'] ++ x :: t) = some (['0'], x :: t) := by
    refine mantissa_append_of_isMantissa hzero ?_
    rintro _ ⟨⟩
    exact ⟨hdecimal, hother.1⟩
  rw [List.singleton_append] at hmantissa
  have hexponent : exponent (x :: t) = ([], x :: t) := by
    cases t with
    | nil => rfl
    | cons d t => simp [exponent, hother.2.1, hother.2.2]
  rw [decimal?, hmantissa] at hread
  simp [hexponent, Cut.after] at hread

end Hexadecimal

/-- What is read as a number is one, and no name goes on behind it. -/
theorem number_spec {cut : Cut} (h : number s = .ok (some cut)) :
    IsNumeral cut.1 ∧ nameFollows cut.2 = false := by
  unfold number at h
  split at h
  · next hhex =>
      cases h
      obtain ⟨⟨x, digits, htext, hx, hne, hdigits⟩, hfollows⟩ := hexadecimal_spec hhex
      exact ⟨htext ▸ .hexadecimal hx hne hdigits, hfollows⟩
  · split at h
    · cases h
    · next text rest hdecimal =>
        split at h
        · cases h
        · obtain ⟨rfl, hfollows⟩ := afterNumber_eq_some h
          exact ⟨.decimal (isDecimalNumeral_of_decimal hdecimal), hfollows⟩

/-- A text is read as one number just if it is one. -/
theorem number_eq_some_iff : number s = .ok (some (s, [])) ↔ IsNumeral s := by
  constructor
  · exact fun h => (number_spec h).1
  · intro h
    cases h with
    | hexadecimal hx hne hdigits =>
        rw [number, hexadecimal_eq_some_iff.2 ⟨_, _, rfl, hx, hne, hdigits⟩]
    | decimal hdecimal =>
        have hopens := opensHexadecimal_of_isDecimalNumeral hdecimal
        rw [number, hexadecimal_none hopens, decimal_eq_some_iff.2 hdecimal]
        simp [hopens, afterNumber]

section Names

/-- Digits alone are what a name may go on behind. -/
theorem all_of_afterNumber {text : Text} (h : afterNumber text rest = .ok none) :
    text.all isDecimal = true ∧ rest ≠ [] := by
  unfold afterNumber at h
  split at h
  · cases h
  · split at h
    · cases h
    · split at h
      · cases h
      · split at h
        · split at h
          · next hall => exact ⟨hall, by simp⟩
          · cases h
        · cases h

/-- Digits run into a name where no exponent, sign or point follows. -/
theorem afterNumber_digits {digits : Text} (hdigits : IsDigits digits)
    (hrest : ∀ d ∈ rest, isNameChar d = true) (hne : rest ≠ []) :
    afterNumber digits rest = .ok none := by
  have hall : digits.all isDecimal = true := List.all_eq_true.2 hdigits.2
  have hpoint : '.' ∉ digits := by
    intro hmem
    have := hdigits.2 _ hmem
    revert this
    decide
  have hname : ∀ {d}, isNameChar d = true → d ≠ '.' ∧ d ≠ '+' ∧ d ≠ '-' := by
    intro d hd
    refine ⟨?_, ?_, ?_⟩ <;> rintro rfl <;> revert hd <;> decide
  cases rest with
  | nil => exact (hne rfl).elim
  | cons d more =>
      obtain ⟨hd, hmore⟩ := List.forall_mem_cons.1 hrest
      have hsign : signFollows more = false := by
        cases more with
        | nil => rfl
        | cons x more =>
            have hx := hname (hmore x List.mem_cons_self)
            simp [signFollows, hx.2]
      simp [afterNumber, hsign, hpoint, hd, hall]

/-- A point and a sign are no part of a name. -/
theorem ne_of_isNameChar {d : Char} (h : isNameChar d = true) : d ≠ '.' ∧ d ≠ '+' ∧ d ≠ '-' := by
  refine ⟨?_, ?_, ?_⟩ <;> rintro rfl <;> revert h <;> decide

/-- Within a name no exponent is read just where no `e` stands before a digit. -/
theorem exponent_eq_nil_iff (hs : ∀ d ∈ s, isNameChar d = true) :
    exponent s = ([], s) ↔
      ∀ e d more, s = e :: d :: more → e = 'e' ∨ e = 'E' → isDecimal d = false := by
  constructor
  · rintro h e d more rfl he
    have hd : ¬ (d = '+' ∨ d = '-') := by
      have := ne_of_isNameChar (hs d (by simp))
      simp [this]
    cases hdecimal : isDecimal d with
    | false => rfl
    | true =>
        rw [exponent, if_pos he, if_neg hd] at h
        simp [Cut.leading, hdecimal] at h
  · intro hnot
    rcases exponent_cases s with h | h
    · exact h
    · have hof : (exponent s).1 ++ (exponent s).2 = s := of_exponent s
      generalize (exponent s).1 = text at h hof
      generalize (exponent s).2 = left at hof
      cases h with
      | @unsigned e digits he hdigits =>
          obtain ⟨d, t, rfl, hd⟩ := hdigits.exists_cons
          have := hnot e d (t ++ left) hof.symm he
          simp [hd] at this
      | @signed e sign digits he hsign hdigits =>
          have := ne_of_isNameChar (hs sign (by simp [← hof]))
          rcases hsign with rfl | rfl
          · exact (this.2.1 rfl).elim
          · exact (this.2.2 rfl).elim

/-- Within a name the leading digits are a mantissa. -/
theorem mantissa_name (hc : isDecimal c = true) (hs : ∀ d ∈ c :: s, isNameChar d = true) :
    mantissa? (c :: s) = some ((c :: s).takeWhile isDecimal, (c :: s).dropWhile isDecimal) := by
  have hdigits : IsDigits ((c :: s).takeWhile isDecimal) :=
    ⟨by simp [hc], fun d hd => List.mem_takeWhile_imp hd⟩
  have hhead : ∀ d ∈ ((c :: s).dropWhile isDecimal).head?, isDecimal d = false ∧ d ≠ '.' := by
    intro d hd
    have hmem := (List.dropWhile_suffix isDecimal).subset (List.mem_of_mem_head? hd)
    have hnot := List.head?_dropWhile_not isDecimal (c :: s)
    rw [Option.mem_def.1 hd] at hnot
    exact ⟨by simpa using hnot, (ne_of_isNameChar (hs d hmem)).1⟩
  have hread := mantissa_append_of_isMantissa (.whole hdigits) hhead
  rwa [List.takeWhile_append_dropWhile] at hread

theorem opensHexadecimal_eq_false_iff :
    opensHexadecimal s = false ↔ ∀ x more, s = '0' :: x :: more → x ≠ 'x' ∧ x ≠ 'X' := by
  rw [← Bool.not_eq_true, opensHexadecimal_iff]
  push Not
  rfl

/-- Digits that run into a name are no number just if the name is one that begins with digits. -/
theorem number_eq_none_iff (hc : isDecimal c = true) (hs : ∀ d ∈ s, isNameChar d = true) :
    number (c :: s) = .ok none ↔ IsDigitName (c :: s) := by
  have hall : ∀ d ∈ c :: s, isNameChar d = true :=
    List.forall_mem_cons.2 ⟨isNameChar_of_isDecimal hc, hs⟩
  have hdigits : IsDigits ((c :: s).takeWhile isDecimal) :=
    ⟨by simp [hc], fun d hd => List.mem_takeWhile_imp hd⟩
  have hmantissa := mantissa_name hc hall
  have hrest : ∀ d ∈ (c :: s).dropWhile isDecimal, isNameChar d = true :=
    fun d hd => hall d ((List.dropWhile_suffix isDecimal).subset hd)
  have hexponent := exponent_eq_nil_iff hrest
  generalize (c :: s).takeWhile isDecimal = digits at hdigits hmantissa
  have hdecimal : decimal? (c :: s) =
      some ((exponent ((c :: s).dropWhile isDecimal)).after digits) := by
    rw [decimal?, hmantissa]
    rfl
  constructor
  · intro h
    unfold number at h
    rw [hdecimal] at h
    split at h
    · cases h
    · dsimp only at h
      split at h
      · cases h
      · next hhex =>
          obtain ⟨hdecimals, hne⟩ := all_of_afterNumber h
          have hnil : exponent ((c :: s).dropWhile isDecimal) =
              ([], (c :: s).dropWhile isDecimal) := by
            rcases exponent_cases ((c :: s).dropWhile isDecimal) with hnil | hread
            · exact hnil
            · -- the letter of an exponent is no digit
              obtain ⟨e, t, heq, he⟩ := hread.head
              rw [Cut.after, heq] at hdecimals
              simp [(not_isDecimal_of_letter he).1] at hdecimals
          rw [hnil] at hne
          exact ⟨hall, opensHexadecimal_eq_false_iff.1 (by simpa using hhex), hne, hexponent.1 hnil⟩
  · rintro ⟨-, hhex, hne, hnot⟩
    have hopens := opensHexadecimal_eq_false_iff.2 hhex
    rw [number, hexadecimal_none hopens, hdecimal, hexponent.2 hnot]
    simpa [Cut.after, hopens] using afterNumber_digits hdigits hrest hne

end Names

end Lexeme

section Tokens

/-- A numeral begins with a digit, or with a point before one. -/
theorem IsNumeral.head (h : IsNumeral s) :
    s.head?.any isDecimal = true ∨ ∃ d t, s = '.' :: d :: t ∧ isDecimal d = true := by
  have hzero : isDecimal '0' = true := by decide
  have hdigits : ∀ {t u : Text}, IsDigits t → (t ++ u).head?.any isDecimal = true := by
    intro t u ht
    obtain ⟨d, t, rfl, hd⟩ := ht.exists_cons
    simpa using hd
  have hmantissa : ∀ {t u : Text}, IsMantissa t →
      (t ++ u).head?.any isDecimal = true ∨ ∃ d v, t ++ u = '.' :: d :: v ∧ isDecimal d = true := by
    intro t u ht
    cases ht with
    | whole ht => exact .inl (hdigits ht)
    | pointed ht _ => exact .inl (by rw [List.append_assoc]; exact hdigits ht)
    | fraction ht =>
        obtain ⟨d, t, rfl, hd⟩ := ht.exists_cons
        exact .inr ⟨d, t ++ u, rfl, hd⟩
  cases h with
  | hexadecimal => exact .inl (by simpa using hzero)
  | decimal h =>
      cases h with
      | plain h => simpa using hmantissa h (u := [])
      | scientific h _ => exact hmantissa h

/-- Where no name stands before it, a text is read as one number just if it is one. -/
theorem lexeme_number_iff :
    lexeme false c s = .ok (.number, c :: s, []) ↔ IsNumeral (c :: s) := by
  rw [← Lexeme.number_eq_some_iff]
  constructor
  · intro h
    have hreads := reads_of_lexeme h
    generalize hcut : (c :: s, ([] : Text)) = cut at hreads
    cases hreads with
    | number hnumber => rw [hnumber, ← hcut]
  · intro h
    have hnumeral := Lexeme.number_eq_some_iff.1 h
    have hopens : isDigitSign c = true ∨ Lexeme.pointDigit (c :: s) = true := by
      rcases hnumeral.head with hdigit | ⟨d, t, heq, hd⟩
      · exact .inl (by simpa [isDigitSign] using .inl hdigit)
      · right
        rw [heq, Lexeme.pointDigit, isDigitSign, hd]
        rfl
    rw [lexeme_numeric hopens, Lexeme.numeric, if_neg (by simp), h]

/-- A text that begins with a digit is read as one name just if it is one. -/
theorem lexeme_digitName_iff (hc : isDecimal c = true) :
    lexeme a c s = .ok (.identifier, c :: s, []) ↔ IsDigitName (c :: s) := by
  have hsign : isDigitSign c = true := by simp [isDigitSign, hc]
  have hpoint : c ≠ '.' := (Lexeme.ne_of_isNameChar (isNameChar_of_isDecimal hc)).1
  rw [lexeme_numeric (.inl hsign), Lexeme.numeric, if_neg (by simp [hpoint])]
  have hname : Lexeme.digitName? (c :: s) = some ((Cut.leading isNameChar s).after [c]) := by
    rw [Lexeme.digitName?, if_pos hsign]
  constructor
  · intro h
    split at h
    · cases h
    · cases h
    · next hnumber =>
        rw [hname] at h
        have hs : s.takeWhile isNameChar = s := by
          simpa [Cut.after, Cut.leading] using congrArg (fun cut => cut.2.1) (Except.ok.inj h)
        refine (Lexeme.number_eq_none_iff hc fun d hd => ?_).1 hnumber
        rw [← hs] at hd
        exact List.mem_takeWhile_imp hd
  · intro h
    have hs : ∀ d ∈ s, isNameChar d = true := fun d hd => h.nameChars d (List.mem_cons_of_mem c hd)
    rw [(Lexeme.number_eq_none_iff hc hs).2 h]
    simp [hname, Cut.leading_self hs, Cut.after]

/-- A text is one number just by its grammar, and a text that begins with a digit is one name just
if it is spelled as one. -/
theorem tokenize_numeral_iff (s : Text) :
    (tokenize s = .ok [⟨.number, s, 0, s.length⟩] ↔ IsNumeral s) ∧
    (s.head?.any isDecimal = true →
      (tokenize s = .ok [⟨.identifier, s, 0, s.length⟩] ↔ IsDigitName s)) := by
  refine ⟨?_, fun hdigit => ?_⟩
  · rw [tokenize_eq_singleton_iff]
    constructor
    · rintro ⟨c, t, rfl, hlex⟩
      exact lexeme_number_iff.1 hlex
    · intro h
      obtain ⟨c, t, rfl⟩ : ∃ c t, s = c :: t := by
        rcases h.head with hhead | ⟨d, t, rfl, -⟩
        · cases s with
          | nil => simp at hhead
          | cons c t => exact ⟨c, t, rfl⟩
        · exact ⟨'.', d :: t, rfl⟩
      exact ⟨c, t, rfl, lexeme_number_iff.2 h⟩
  · obtain ⟨c, t, rfl⟩ : ∃ c t, s = c :: t := by
      cases s with
      | nil => simp at hdigit
      | cons c t => exact ⟨c, t, rfl⟩
    have hc : isDecimal c = true := by simpa using hdigit
    rw [tokenize_eq_singleton_iff, ← lexeme_digitName_iff hc (a := false)]
    constructor
    · rintro ⟨d, u, heq, hlex⟩
      obtain ⟨rfl, rfl⟩ := List.cons.inj heq
      exact hlex
    · exact fun hlex => ⟨c, t, rfl, hlex⟩

/-- An `e` that no digit follows goes on with the name, and behind a point it begins an
exponent. -/
theorem tokenize_numeral_letter :
    "1e_5".toList.head?.any isDecimal = true ∧
      tokenize "1e_5" = .ok [⟨.identifier, "1e_5", 0, 4⟩] ∧
      tokenize "1.e5" = .ok [⟨.number, "1.e5", 0, 4⟩] := by
  have hdigits : ∀ c, isDecimal c = true → IsDigits [c] := fun c hc => ⟨by simp, by simpa using hc⟩
  have hname : IsDigitName "1e_5" := by
    refine ⟨List.all_eq_true.1 (by decide), by simp, by decide, ?_⟩
    intro e d more heq _
    have hrest : "1e_5".toList.dropWhile isDecimal = ['e', '_', '5'] := by decide
    obtain ⟨-, htail⟩ := List.cons.inj (hrest.symm.trans heq)
    obtain ⟨rfl, -⟩ := List.cons.inj htail
    decide
  have hmantissa : IsMantissa (['1'] ++ '.' :: []) := .pointed (hdigits '1' (by decide)) (by simp)
  have hnumeral : IsNumeral "1.e5" :=
    .decimal (.scientific hmantissa (.unsigned (.inl rfl) (hdigits '5' (by decide))))
  exact ⟨by decide, ((tokenize_numeral_iff "1e_5").2 (by decide)).2 hname,
    (tokenize_numeral_iff "1.e5").1.2 hnumeral⟩

end Tokens

end Restate
