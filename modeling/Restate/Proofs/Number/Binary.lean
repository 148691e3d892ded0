import Mathlib.Data.Nat.Digits.Defs
import Restate.Number.Numeral
import Restate.Proofs.Text.Blank

/-!
# Numerals to base two

What a text must look like to be read as an integer to base two, as a grammar: blanks, a sign, the
mark `0b`, digits of any script with single underscores between them, and blanks again. Main
statement: the reader accepts just the texts of the grammar, with their values
(`integer_two_eq_ok_iff`).
-/

namespace Restate.Numeral

open Text

/-- Digits to a base with single underscores between them, and the values of the digits. -/
inductive IsRun (base : Nat) : Text → List Nat → Prop where
  | last {c : Char} {d : Nat} : digit? base c = some d → IsRun base [c] [d]
  | next {c : Char} {d : Nat} {s : Text} {digits : List Nat} :
      digit? base c = some d → IsRun base s digits → IsRun base (c :: s) (d :: digits)
  | apart {c : Char} {d : Nat} {s : Text} {digits : List Nat} :
      digit? base c = some d → IsRun base s digits → IsRun base (c :: '_' :: s) (d :: digits)

/-- A sign, or none, and the unit it stands for. -/
inductive IsSign : Text → Int → Prop where
  | absent : IsSign [] 1
  | plus : IsSign ['+'] 1
  | minus : IsSign ['-'] (-1)

/-- The mark of a binary numeral, or none. -/
inductive IsMark : Text → Prop where
  | absent : IsMark []
  | mark {z b : Char} : digit? 2 z = some 0 → b = 'b' ∨ b = 'B' → IsMark [z, b]
  | apart {z b : Char} : digit? 2 z = some 0 → b = 'b' ∨ b = 'B' → IsMark [z, b, '_']

/-- A numeral to base two between blanks, and its value. -/
inductive IsBinary : Text → Int → Prop where
  | mk {lead sign mark run trail : Text} {unit : Int} {digits : List Nat} :
      lead.all isBlank = true → IsSign sign unit → IsMark mark → IsRun 2 run digits →
      trail.all isBlank = true →
      IsBinary (lead ++ (sign ++ (mark ++ (run ++ trail))))
        (unit * (Nat.ofDigits 2 digits.reverse : Nat))

variable {base d : Nat} {c : Char} {s r : Text} {digits : List Nat}

theorem ofDigits_eq (base : Nat) (digits : List Nat) :
    ofDigits base digits = Nat.ofDigits base digits.reverse := by
  rw [Nat.ofDigits_eq_foldr, List.foldr_reverse, ofDigits]
  refine congrArg (fun f => digits.foldl f 0) ?_
  funext n d
  rw [Nat.add_comm, Nat.mul_comm]
  rfl

section Blanks

variable {f : Char → Bool}

theorem isBlank_of_numeral (h : isBlank c = true) : Text.isBlank c = true := by
  unfold isBlank at h
  split at h
  · next hascii =>
      have : c.toNat = 32 ∨ 9 ≤ c.toNat ∧ c.toNat ≤ 13 := by
        simpa [← Char.toNat_inj] using h
      simp [Text.isBlank, blankSteps, Steps.contains]
      omega
  · exact h

/-- Nothing that a numeral is made of is a blank. -/
theorem not_isBlank (hf : blanks.all (!f ·) = true) (h : f c = true) : isBlank c = false := by
  cases hc : isBlank c with
  | false => rfl
  | true => simp [not_of_isBlank hf (isBlank_of_numeral hc)] at h

theorem not_isBlank_of_digit (h : digit? 2 c = some d) : isBlank c = false :=
  not_isBlank (f := fun c => (digit? 2 c).isSome) (by decide +kernel) (by simp [h])

end Blanks

section Run

theorem not_digit_underscore : digit? base '_' = none := by
  simp [digit?, decimalValue?]

theorem IsRun.exists_cons (h : IsRun base s digits) :
    ∃ c d t, s = c :: t ∧ digit? base c = some d := by
  cases h with
  | last hc => exact ⟨_, _, _, rfl, hc⟩
  | next hc _ => exact ⟨_, _, _, rfl, hc⟩
  | apart hc _ => exact ⟨_, _, _, rfl, hc⟩

theorem IsRun.ne_nil (h : IsRun base s digits) : digits ≠ [] := by
  cases h with
  | last | next | apart => simp

/-- What the reader takes from the head of a text is a run of digits, unless it takes nothing. -/
theorem digitRun_sound (base : Nat) (s : Text) :
    digitRun base s = ([], s) ∨
      ∃ run, s = run ++ (digitRun base s).2 ∧ IsRun base run (digitRun base s).1 := by
  fun_induction digitRun base s with
  | case1 => exact .inl rfl
  | case2 c d hc => exact .inr ⟨[c], rfl, .last hc⟩
  | case3 c hc => exact .inl rfl
  | case4 c e s hc => exact .inl rfl
  | case5 c s d hc more rest hmore hnone ih => exact .inr ⟨[c], rfl, .last hc⟩
  | case6 c s d hc more rest hmore hsome ih =>
      rw [hmore] at ih
      rcases ih with heq | ⟨run, heq, hrun⟩
      · cases heq
        exact absurd rfl hsome
      · exact .inr ⟨c :: '_' :: run, congrArg (c :: '_' :: ·) heq, .apart hc hrun⟩
  | case7 c e s d hc he more rest hmore ih =>
      rw [hmore] at ih
      rcases ih with heq | ⟨run, heq, hrun⟩
      · cases heq
        exact .inr ⟨[c], rfl, .last hc⟩
      · exact .inr ⟨c :: run, congrArg (c :: ·) heq, .next hc hrun⟩

/-- A text does not go on as a run of digits does. -/
def EndsRun (base : Nat) (s : Text) : Prop :=
  ∀ c ∈ s.head?, c ≠ '_' ∧ digit? base c = none

theorem digitRun_of_endsRun (h : EndsRun base s) : digitRun base s = ([], s) := by
  cases s with
  | nil => rfl
  | cons c t =>
      have hc := (h c rfl).2
      cases t with
      | nil => simp [digitRun, hc]
      | cons e t => simp [digitRun, hc]

/-- A run that does not go on is taken as a whole. -/
theorem IsRun.digitRun_append (h : IsRun base s digits) (hr : EndsRun base r) :
    digitRun base (s ++ r) = (digits, r) := by
  induction h with
  | @last c d hc =>
      cases r with
      | nil => simp [digitRun, hc]
      | cons e r =>
          have he := (hr e rfl).1
          simp [digitRun, hc, he, digitRun_of_endsRun hr]
  | @next c d s digits hc hs ih =>
      obtain ⟨e, _, t, rfl, he⟩ := hs.exists_cons
      have hne : e ≠ '_' := by
        rintro rfl
        simp [not_digit_underscore] at he
      simp only [List.cons_append] at ih ⊢
      simp [digitRun, hc, hne, ih]
  | @apart c d s digits hc hs ih => simp [digitRun, hc, ih, hs.ne_nil]

end Run

section Whole

variable {n unit : Int} {sign mark run : Text}

theorem sign_sound {negative : Bool} {after : Text} (h : Numeral.sign s = (negative, after)) :
    ∃ sign, s = sign ++ after ∧ IsSign sign (if negative then -1 else 1) := by
  unfold Numeral.sign at h
  split at h
  · cases h
    exact ⟨['-'], rfl, .minus⟩
  · cases h
    exact ⟨['+'], rfl, .plus⟩
  · cases h
    exact ⟨[], rfl, .absent⟩

theorem afterBinaryMark_sound (s : Text) : ∃ mark, s = mark ++ afterBinaryMark s ∧ IsMark mark := by
  fun_cases afterBinaryMark s with
  | case1 z b h more => exact ⟨[z, b, '_'], rfl, .apart h.1 h.2⟩
  | case2 z b s h hnone => exact ⟨[z, b], rfl, .mark h.1 h.2⟩
  | case3 => exact ⟨[], rfl, .absent⟩
  | case4 => exact ⟨[], rfl, .absent⟩

/-- What is read to base two, from what its parts are read as. -/
theorem integer_two_of_parts {negative : Bool} {after : Text}
    (hsign : Numeral.sign (s.dropWhile isBlank) = (negative, after))
    (hrun : digitRun 2 (afterBinaryMark after) = (digits, r)) :
    integer 2 s = .ok n ↔
      digits ≠ [] ∧ r.all isBlank = true ∧
        n = (if negative then -1 else 1) * (Nat.ofDigits 2 digits.reverse : Nat) := by
  have hmark : r.all isBlank = true → r.head? ≠ some '_' := by
    intro hr hhead
    obtain ⟨t, rfl⟩ := List.head?_eq_some_iff.1 hhead
    simp [isBlank] at hr
  unfold integer
  simp only [hsign, hrun, ofDigits_eq, if_true]
  by_cases hdigits : digits = []
  · simp [hdigits]
  · by_cases hr : r.all isBlank = true
    · rw [if_neg (by simp [hdigits, hmark hr]), if_neg (by simp), if_pos hr]
      cases negative with
      | true => simp [hdigits, hr, eq_comm]
      | false => simp [hdigits, hr, eq_comm]
    · simp [hr]

/-- What is read as an integer to base two is a numeral of the grammar, with that value. -/
theorem isBinary_of_integer (h : integer 2 s = .ok n) : IsBinary s n := by
  obtain ⟨⟨negative, after⟩, hafter⟩ : ∃ x, Numeral.sign (s.dropWhile isBlank) = x := ⟨_, rfl⟩
  obtain ⟨⟨digits, rest⟩, hread⟩ : ∃ x, digitRun 2 (afterBinaryMark after) = x := ⟨_, rfl⟩
  obtain ⟨hdigits, hrest, rfl⟩ := (integer_two_of_parts hafter hread).1 h
  obtain ⟨sign, hsign, hunit⟩ := sign_sound hafter
  obtain ⟨mark, hmark, hmarked⟩ := afterBinaryMark_sound after
  have hlead : s = s.takeWhile isBlank ++ s.dropWhile isBlank := by simp
  rcases hread ▸ digitRun_sound 2 (afterBinaryMark after) with heq | ⟨run, hbody, hrun⟩
  · cases heq
    exact absurd rfl hdigits
  · rw [hlead, hsign, hmark, hbody]
    exact .mk (by simp) hunit hmarked hrun hrest

/-- Behind its sign a numeral begins with a digit. -/
theorem IsMark.exists_cons (h : IsMark mark) (hrun : IsRun 2 run digits) (r : Text) :
    ∃ c d t, mark ++ (run ++ r) = c :: t ∧ digit? 2 c = some d := by
  cases h with
  | absent =>
      obtain ⟨c, d, t, rfl, hc⟩ := hrun.exists_cons
      exact ⟨c, d, t ++ r, rfl, hc⟩
  | mark hz _ => exact ⟨_, _, _, rfl, hz⟩
  | apart hz _ => exact ⟨_, _, _, rfl, hz⟩

theorem IsSign.read (h : IsSign sign unit) (hc : digit? 2 c = some d) (r : Text) :
    ∃ negative : Bool, Numeral.sign (sign ++ c :: r) = (negative, c :: r) ∧
      unit = if negative then -1 else 1 := by
  cases h with
  | absent =>
      refine ⟨false, ?_, rfl⟩
      unfold Numeral.sign
      split
      · simp_all [digit?, decimalValue?]
      · simp_all [digit?, decimalValue?]
      · rfl
  | plus => exact ⟨false, rfl, rfl⟩
  | minus => exact ⟨true, rfl, rfl⟩

/-- Behind a first digit neither more digits nor blanks look like the letter of a mark. -/
theorem IsRun.head_tail (h : IsRun base (c :: s) digits) (hr : r.all isBlank = true) :
    ∀ e ∈ (s ++ r).head?, e ≠ 'b' ∧ e ≠ 'B' := by
  have hdigit : ∀ {e : Char} {d : Nat}, digit? base e = some d → e ≠ 'b' ∧ e ≠ 'B' := by
    intro e d he
    constructor
    · rintro rfl
      simp [digit?, decimalValue?] at he
    · rintro rfl
      simp [digit?, decimalValue?] at he
  intro e he
  cases h with
  | last _ =>
      have hblank : isBlank e = true := List.all_eq_true.1 hr e (List.mem_of_head? he)
      constructor
      · rintro rfl
        simp [isBlank] at hblank
      · rintro rfl
        simp [isBlank] at hblank
  | next _ hs =>
      obtain ⟨_, _, t, rfl, hc⟩ := hs.exists_cons
      obtain rfl := Option.some.inj he
      exact hdigit hc
  | apart _ _ =>
      obtain rfl := Option.some.inj he
      decide

/-- The mark is taken from the head of a numeral, and nothing where there is none. -/
theorem IsMark.afterBinaryMark_append (h : IsMark mark) (hrun : IsRun 2 run digits)
    (hr : r.all isBlank = true) : afterBinaryMark (mark ++ (run ++ r)) = run ++ r := by
  obtain ⟨c, _, t, rfl, hc⟩ := hrun.exists_cons
  cases h with
  | absent =>
      have hnext := hrun.head_tail hr
      rw [List.nil_append, List.cons_append]
      cases hs : t ++ r with
      | nil => rfl
      | cons e s =>
          have he := hnext e (by simp [hs])
          simp [afterBinaryMark, he]
  | mark hz hb =>
      have hne : c ≠ '_' := by
        rintro rfl
        simp [not_digit_underscore] at hc
      simp only [List.cons_append, List.nil_append, afterBinaryMark]
      rw [if_pos ⟨hz, hb⟩]
      split
      · next heq => exact absurd (List.cons.inj heq).1 hne
      · rfl
  | apart hz hb => simp [afterBinaryMark, hz, hb]

theorem endsRun_of_blanks (hr : r.all isBlank = true) : EndsRun 2 r := by
  intro c hc
  have hblank : isBlank c = true := List.all_eq_true.1 hr c (List.mem_of_head? hc)
  constructor
  · rintro rfl
    simp [isBlank] at hblank
  · cases hdigit : digit? 2 c with
    | none => rfl
    | some d => simp [not_isBlank_of_digit hdigit] at hblank

/-- The blanks before a numeral end with it. -/
theorem dropWhile_lead {lead : Text} (hlead : lead.all isBlank = true) (hsign : IsSign sign unit)
    (hc : digit? 2 c = some d) :
    (lead ++ (sign ++ c :: r)).dropWhile isBlank = sign ++ c :: r := by
  rw [List.dropWhile_append_of_pos (by simpa using hlead)]
  cases hsign with
  | absent => simp [not_isBlank_of_digit hc]
  | plus => simp [isBlank]
  | minus => simp [isBlank]

/-- A numeral of the grammar is read, and its value is what is read. -/
theorem integer_of_isBinary (h : IsBinary s n) : integer 2 s = .ok n := by
  cases h with
  | @mk lead sign mark run trail unit digits hlead hsign hmark hrun htrail =>
      obtain ⟨c, d, t, hbody, hc⟩ := hmark.exists_cons hrun trail
      obtain ⟨negative, hread, rfl⟩ := hsign.read hc t
      have hafter : Numeral.sign ((lead ++ (sign ++ (mark ++ (run ++ trail)))).dropWhile isBlank) =
          (negative, mark ++ (run ++ trail)) := by
        rw [hbody, dropWhile_lead hlead hsign hc, hread]
      have hdigits : digitRun 2 (afterBinaryMark (mark ++ (run ++ trail))) = (digits, trail) := by
        rw [hmark.afterBinaryMark_append hrun htrail,
          hrun.digitRun_append (endsRun_of_blanks htrail)]
      exact (integer_two_of_parts hafter hdigits).2 ⟨hrun.ne_nil, htrail, rfl⟩

/-- The texts read as integers to base two are the binary numerals, and their values are read. -/
theorem integer_two_eq_ok_iff : integer 2 s = .ok n ↔ IsBinary s n :=
  ⟨isBinary_of_integer, integer_of_isBinary⟩

theorem IsBinary.unique {m : Int} (hn : IsBinary s n) (hm : IsBinary s m) : n = m :=
  Except.ok.inj ((integer_of_isBinary hn).symm.trans (integer_of_isBinary hm))

end Whole

section Bits

/-- One of the two characters for a bit. -/
def isBit (c : Char) : Bool :=
  c == '0' || c == '1'

def bitValue (c : Char) : Nat :=
  if c = '1' then 1 else 0

/-- The number that characters for bits spell, the first of them the highest. -/
def bitsValue (s : Text) : Nat :=
  Nat.ofDigits 2 (s.reverse.map bitValue)

theorem digit?_of_isBit (h : isBit c = true) : digit? 2 c = some (bitValue c) := by
  rcases Bool.or_eq_true_iff.1 h with h | h
  · rw [eq_of_beq h]
    decide
  · rw [eq_of_beq h]
    decide

theorem isRun_of_bits (hs : s ≠ []) (h : s.all isBit = true) : IsRun 2 s (s.map bitValue) := by
  induction s with
  | nil => exact absurd rfl hs
  | cons c s ih =>
      obtain ⟨hc, hrest⟩ : isBit c = true ∧ s.all isBit = true := by simpa using h
      cases s with
      | nil => exact .last (digit?_of_isBit hc)
      | cons e s => exact .next (digit?_of_isBit hc) (ih (by simp) hrest)

/-- Bits alone are a numeral, of the number they spell. -/
theorem isBinary_of_bits (hs : s ≠ []) (h : s.all isBit = true) : IsBinary s (bitsValue s : Nat) := by
  have hbinary : IsBinary ([] ++ ([] ++ ([] ++ (s ++ [])))) (1 * (bitsValue s : Nat)) := by
    rw [bitsValue, List.map_reverse]
    exact .mk rfl .absent .absent (isRun_of_bits hs h) rfl
  simpa using hbinary

end Bits

end Restate.Numeral
