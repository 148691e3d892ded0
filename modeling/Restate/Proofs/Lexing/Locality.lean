import Restate.Proofs.Lexing.Spelling
import Restate.Proofs.Text.Blank

/-!
# Lexemes do not look behind a break

A break is a semicolon or a blank. A lexeme that ends before a break is read in the same way if the
text ends at the break: no reader looks past it. The one reader that asks for a blank or the end is
that of comments behind two hyphens. Main statement: `lexeme_of_append`.
-/

namespace Restate

open Text

/-- A semicolon or a blank. -/
def isBreak (c : Char) : Bool :=
  c == ';' || isBlank c

section Breaks

variable {d : Char}

theorem not_of_isBreak {f : Char → Bool} (hf : (';' :: blanks).all (!f ·) = true)
    (hd : isBreak d = true) : f d = false := by
  obtain ⟨hsemicolon, hblanks⟩ := Bool.and_eq_true_iff.1 hf
  rcases Bool.or_eq_true_iff.1 hd with hd | hd
  · rw [eq_of_beq hd]
    simpa using hsemicolon
  · exact not_of_isBlank hblanks hd

theorem foreign_break (hd : isBreak d = true) : Lexeme.Foreign d where
  name := not_of_isBreak (by decide +kernel) hd
  decimal := not_of_isBreak (by decide +kernel) hd
  digitSign := not_of_isBreak (by decide +kernel) hd
  hexDigit := not_of_isBreak (by decide +kernel) hd
  sign := by
    have := not_of_isBreak (f := (['.', '+', '-'].contains ·)) (by decide +kernel) hd
    simpa using this

theorem isWordChar_break (hd : isBreak d = true) : isWordChar d = false :=
  (Bool.or_eq_false_iff.1 (foreign_break hd).name).1

theorem isVariableChar_break (hd : isBreak d = true) : Lexeme.isVariableChar d = false :=
  not_of_isBreak (by decide +kernel) hd

theorem ne_of_isBreak {c : Char} (hc : isBreak c = false) (hd : isBreak d = true) : d ≠ c := by
  rintro rfl
  simp [hc] at hd

end Breaks

namespace Cut

/-- The same lexeme, with more text behind what follows it. -/
def before (cut : Cut) (more : Text) : Cut :=
  (cut.1, cut.2 ++ more)

/-- What is read of a text as against what is read of it with `more` behind it: the same, if the
lexeme ends before that. -/
def Agree (more : Text) (short long : Option Cut) : Prop :=
  (long = none → short = none) ∧
    ∀ text rest, long = some (text, rest ++ more) → short = some (text, rest)

variable {more : Text}

theorem before_inj {cut : Cut} {text rest : Text} (h : cut.before more = (text, rest ++ more)) :
    cut = (text, rest) := by
  obtain ⟨htext, hrest⟩ := Prod.mk.inj h
  exact Prod.ext htext (List.append_cancel_right hrest)

theorem agree_of_map {short long : Option Cut} (h : long = short.map (·.before more)) :
    Agree more short long := by
  subst h
  refine ⟨fun hnone => Option.map_eq_none_iff.1 hnone, ?_⟩
  rintro text rest hsome
  obtain ⟨cut, hshort, hcut⟩ := Option.map_eq_some_iff.1 hsome
  rwa [before_inj hcut] at hshort

theorem Agree.after {short long : Option Cut} (h : Agree more short long) (head : Text) :
    Agree more (short.map (after head)) (long.map (after head)) := by
  refine ⟨fun hnone => ?_, ?_⟩
  · rw [h.1 (Option.map_eq_none_iff.1 hnone)]
    rfl
  · rintro text rest hsome
    obtain ⟨⟨text', rest'⟩, hlong, heq⟩ := Option.map_eq_some_iff.1 hsome
    obtain ⟨rfl, rfl⟩ := Prod.mk.inj heq
    rw [h.2 text' rest hlong]
    rfl

/-- Where two readers agree, and what is tried after them reads the same, so does what tries them
first. -/
theorem Agree.orElse {short long : Option Cut} {k : Text → TokenKind}
    {next next' : Except LexFault (TokenKind × Cut)} {kind : TokenKind} {text rest : Text}
    (h : Agree more short long)
    (hnext : next' = .ok (kind, text, rest ++ more) → next = .ok (kind, text, rest))
    (hlong : (match long with
      | some cut => .ok (k cut.1, cut)
      | none => next') = Except.ok (kind, text, rest ++ more)) :
    (match short with
      | some cut => .ok (k cut.1, cut)
      | none => next) = Except.ok (kind, text, rest) := by
  cases hfound : long with
  | none =>
      rw [hfound] at hlong
      rw [h.1 hfound]
      exact hnext hlong
  | some cut =>
      rw [hfound] at hlong
      obtain ⟨rfl, hcut⟩ := Prod.mk.inj (Except.ok.inj hlong)
      subst hcut
      rw [h.2 text rest hfound]

/-- A reader agrees if what it takes decides it, together with a test of what follows that `more`
does not change. -/
theorem agree_of_iff {reader : Text → Option Cut} {whole follows : Text → Prop}
    (hreader : ∀ s text rest,
      reader s = some (text, rest) ↔ s = text ++ rest ∧ whole text ∧ follows rest)
    (hfollows : ∀ rest, follows (rest ++ more) ↔ follows rest) (s : Text) :
    Agree more (reader s) (reader (s ++ more)) := by
  constructor
  · intro hnone
    cases hshort : reader s with
    | none => rfl
    | some cut =>
        obtain ⟨hs, hwhole, hrest⟩ := (hreader s cut.1 cut.2).1 hshort
        have hlong := (hreader (s ++ more) cut.1 (cut.2 ++ more)).2
          ⟨by rw [hs, List.append_assoc], hwhole, (hfollows _).2 hrest⟩
        simp [hnone] at hlong
  · intro text rest hlong
    obtain ⟨hs, hwhole, hrest⟩ := (hreader _ _ _).1 hlong
    rw [← List.append_assoc] at hs
    exact (hreader _ _ _).2 ⟨List.append_cancel_right hs, hwhole, (hfollows _).1 hrest⟩

theorem leading_append {p : Char → Bool} {d : Char} (hd : p d = false) (s z : Text) :
    leading p (s ++ d :: z) = (leading p s).before (d :: z) := by
  induction s with
  | nil => simp [leading, before, hd]
  | cons c s ih =>
      unfold leading before at *
      obtain ⟨htake, hdrop⟩ := Prod.mk.inj ih
      cases hc : p c with
      | true => simp [hc, htake, hdrop]
      | false => simp [hc]

/-- What ends before the end of a text ends there whatever is left of it. -/
theorem leading_of_append {p : Char → Bool} {s text rest : Text}
    (h : leading p (s ++ more) = (text, rest ++ more)) : leading p s = (text, rest) := by
  have hs : s = text ++ rest := by
    have hof := of_leading p (s ++ more)
    rw [h] at hof
    exact (List.append_cancel_right ((List.append_assoc text rest more).trans hof)).symm
  have htext : ∀ c ∈ text, p c = true := by
    rw [show text = (s ++ more).takeWhile p from (congrArg Prod.fst h).symm]
    exact fun c hc => List.mem_takeWhile_imp hc
  have hrest : rest.takeWhile p = [] := by
    cases rest with
    | nil => rfl
    | cons c rest =>
        have hhead := List.head?_dropWhile_not p (s ++ more)
        rw [show (s ++ more).dropWhile p = c :: rest ++ more from congrArg Prod.snd h] at hhead
        simp only [List.cons_append, List.head?_cons] at hhead
        simp [hhead]
  have hdrop : rest.dropWhile p = rest := by
    have := List.takeWhile_append_dropWhile (p := p) (l := rest)
    rwa [hrest] at this
  rw [leading, hs, List.takeWhile_append_of_pos htext, List.dropWhile_append_of_pos htext, hrest,
    hdrop, List.append_nil]

end Cut

namespace Lexeme

variable {d : Char} {z : Text}

section Quoted

theorem throughQuote_self {quote : Char} {escapes : Bool} {s : Text} {cut : Cut}
    (h : throughQuote quote escapes s = some cut) :
    throughQuote quote escapes cut.1 = some (cut.1, []) ∧ cut.2.head? ≠ some quote := by
  fun_induction throughQuote quote escapes s generalizing cut with
  | case1 => simp at h
  | case2 => simp at h
  | case3 hescape =>
      cases h
      simp [throughQuote, hescape]
  | case4 => simp at h
  | case5 c d s hescape ih =>
      obtain ⟨cut, hcut, rfl⟩ := Option.map_eq_some_iff.1 h
      obtain ⟨hself, hhead⟩ := ih hcut
      refine ⟨?_, hhead⟩
      rw [Cut.after, List.cons_append, List.singleton_append, throughQuote, if_pos hescape, hself]
      rfl
  | case6 s hescape ih =>
      obtain ⟨cut, hcut, rfl⟩ := Option.map_eq_some_iff.1 h
      obtain ⟨hself, hhead⟩ := ih hcut
      exact ⟨by simp [throughQuote, Cut.after, hescape, hself], hhead⟩
  | case7 d s hd hescape =>
      cases h
      exact ⟨by simp [throughQuote, hescape], by simpa using hd⟩
  | case8 c d s hescape hc ih =>
      obtain ⟨cut, hcut, rfl⟩ := Option.map_eq_some_iff.1 h
      obtain ⟨hself, hhead⟩ := ih hcut
      refine ⟨?_, hhead⟩
      cases htext : cut.1 with
      | nil => simp [htext, throughQuote] at hself
      | cons e text =>
          rw [htext] at hself
          simp [throughQuote, Cut.after, hescape, hc, hself, htext]

theorem throughQuote_append {quote : Char} {escapes : Bool} {text rest : Text} {cut : Cut}
    (h : throughQuote quote escapes text = some cut) (hend : cut.2 = [])
    (hrest : rest.head? ≠ some quote) :
    throughQuote quote escapes (text ++ rest) = some (cut.1, rest) := by
  fun_induction throughQuote quote escapes text generalizing cut with
  | case1 => simp at h
  | case2 => simp at h
  | case3 hescape =>
      cases h
      cases rest with
      | nil => simp [throughQuote, hescape]
      | cons d rest =>
          have hd : d ≠ quote := by simpa using hrest
          simp [throughQuote, hescape, hd]
  | case4 => simp at h
  | case5 c d s hescape ih =>
      obtain ⟨cut, hcut, rfl⟩ := Option.map_eq_some_iff.1 h
      rw [List.cons_append, List.cons_append, throughQuote, if_pos hescape, ih hcut hend]
      rfl
  | case6 s hescape ih =>
      obtain ⟨cut, hcut, rfl⟩ := Option.map_eq_some_iff.1 h
      simp [throughQuote, Cut.after, hescape, ih hcut hend]
  | case7 d s hd hescape =>
      cases h
      simp at hend
  | case8 c d s hescape hc ih =>
      obtain ⟨cut, hcut, rfl⟩ := Option.map_eq_some_iff.1 h
      have := ih hcut hend
      rw [List.cons_append] at this
      simp [throughQuote, Cut.after, hescape, hc, this]

/-- A span ends where it does because of what it holds, and of the quote that does not follow. -/
theorem throughQuote_iff {quote : Char} {escapes : Bool} (s text rest : Text) :
    throughQuote quote escapes s = some (text, rest) ↔
      s = text ++ rest ∧ throughQuote quote escapes text = some (text, []) ∧
        rest.head? ≠ some quote := by
  constructor
  · intro h
    exact ⟨(of_throughQuote h).symm, throughQuote_self h⟩
  · rintro ⟨rfl, htext, hrest⟩
    exact throughQuote_append htext rfl hrest

theorem throughClose_self {s : Text} {cut : Cut} (h : throughClose s = some cut) :
    throughClose cut.1 = some (cut.1, []) := by
  fun_induction throughClose s generalizing cut with
  | case1 => simp at h
  | case2 s =>
      cases h
      rfl
  | case3 c s hopen ih =>
      obtain ⟨cut, hcut, rfl⟩ := Option.map_eq_some_iff.1 h
      have hself := ih hcut
      have hof : cut.1 ++ cut.2 = s := of_throughClose hcut
      rw [Cut.after, List.singleton_append, throughClose, hself]
      · rfl
      · intro more hc htext
        exact hopen (more ++ cut.2) hc (by rw [← hof, htext, List.cons_append])

theorem throughClose_append {text : Text} {cut : Cut} (h : throughClose text = some cut)
    (hend : cut.2 = []) (rest : Text) : throughClose (text ++ rest) = some (cut.1, rest) := by
  fun_induction throughClose text generalizing cut with
  | case1 => simp at h
  | case2 s =>
      cases h
      obtain rfl : s = [] := hend
      rfl
  | case3 c s hopen ih =>
      obtain ⟨cut, hcut, rfl⟩ := Option.map_eq_some_iff.1 h
      rw [List.cons_append, throughClose, ih hcut hend]
      · rfl
      · intro more hc hs
        cases s with
        | nil => simp [throughClose] at hcut
        | cons d s =>
            obtain ⟨rfl, -⟩ := List.cons.inj hs
            exact hopen s hc rfl

theorem throughClose_iff (s text rest : Text) :
    throughClose s = some (text, rest) ↔
      s = text ++ rest ∧ throughClose text = some (text, []) ∧ True := by
  constructor
  · intro h
    exact ⟨(of_throughClose h).symm, throughClose_self h, trivial⟩
  · rintro ⟨rfl, htext, -⟩
    exact throughClose_append htext rfl rest

theorem agree_quoted {quote : Char} (hquote : d ≠ quote) (s : Text) :
    Cut.Agree (d :: z) (quoted? quote s) (quoted? quote (s ++ d :: z)) := by
  apply Cut.Agree.after
  apply Cut.agree_of_iff throughQuote_iff
  intro rest
  cases rest with
  | nil => simp [hquote]
  | cons c rest => simp

theorem agree_close (more s : Text) :
    Cut.Agree more (throughClose s) (throughClose (s ++ more)) :=
  Cut.agree_of_iff throughClose_iff (fun _ => Iff.rfl) s

end Quoted

section Comments

theorem agree_line (more s : Text) : Cut.Agree more (some (line s)) (some (line (s ++ more))) := by
  refine ⟨fun h => by simp at h, ?_⟩
  intro text rest h
  exact congrArg some (Cut.leading_of_append (Option.some.inj h))

theorem lineComment_hash (s : Text) : lineComment? ('#' :: s) = some ((line s).after ['#']) :=
  rfl

theorem lineComment_hyphens (s : Text) :
    lineComment? ('-' :: '-' :: s) =
      if hyphensOpen s then some ((line s).after ['-', '-']) else none :=
  rfl

theorem lineComment_none {c : Char} {s : Text} (hhash : c ≠ '#')
    (hhyphens : c = '-' → s.head? ≠ some '-') : lineComment? (c :: s) = none := by
  unfold lineComment?
  split
  · next heq => exact (hhash (List.cons.inj heq).1).elim
  · next heq =>
      obtain ⟨hc, rfl⟩ := List.cons.inj heq
      exact (hhyphens hc rfl).elim
  · rfl

/-- Only of two hyphens by themselves it matters what follows. -/
theorem agree_lineComment (hd : isBreak d = true) {c : Char} {s : Text}
    (hhyphens : c = '-' → s = ['-'] → isBlank d = true) :
    Cut.Agree (d :: z) (lineComment? (c :: s)) (lineComment? (c :: (s ++ d :: z))) := by
  by_cases hhash : c = '#'
  · subst hhash
    exact (agree_line _ s).after ['#']
  · by_cases hopens : c = '-' ∧ s.head? = some '-'
    · obtain ⟨rfl, hs⟩ := hopens
      obtain ⟨s, rfl⟩ := List.head?_eq_some_iff.1 hs
      have hopen : hyphensOpen (s ++ d :: z) = hyphensOpen s := by
        cases s with
        | nil => exact hhyphens rfl rfl
        | cons e s => rfl
      rw [List.cons_append, lineComment_hyphens, lineComment_hyphens, hopen]
      split
      · exact (agree_line _ s).after ['-', '-']
      · exact Cut.agree_of_map rfl
    · have hshort : c = '-' → s.head? ≠ some '-' := fun hc hs => hopens ⟨hc, hs⟩
      have hlong : c = '-' → (s ++ d :: z).head? ≠ some '-' := by
        intro hc
        cases s with
        | nil => simpa using ne_of_isBreak (by decide) hd
        | cons e s => exact hshort hc
      rw [lineComment_none hhash hshort, lineComment_none hhash hlong]
      exact Cut.agree_of_map rfl

end Comments

section Numbers

variable (hd : isBreak d = true)
include hd

theorem nameFollows_append (s : Text) : nameFollows (s ++ d :: z) = nameFollows s := by
  cases s with
  | nil => exact (foreign_break hd).name
  | cons c s => rfl

omit hd in
theorem opensHexadecimal_iff {s : Text} :
    opensHexadecimal s = true ↔ ∃ x t, s = '0' :: x :: t ∧ (x = 'x' ∨ x = 'X') := by
  unfold opensHexadecimal
  split
  · simp
  · next hother =>
      refine iff_of_false (by simp) ?_
      rintro ⟨x, t, rfl, -⟩
      exact hother x t rfl

theorem opensHexadecimal_append (s : Text) :
    opensHexadecimal (s ++ d :: z) = opensHexadecimal s := by
  rw [Bool.eq_iff_iff, opensHexadecimal_iff, opensHexadecimal_iff]
  constructor
  · rintro ⟨x, t, hs, hx⟩
    match s with
    | [] => exact (ne_of_isBreak (by decide) hd (List.cons.inj hs).1).elim
    | [a] =>
        obtain ⟨-, hs⟩ := List.cons.inj hs
        obtain rfl : d = x := (List.cons.inj hs).1
        rcases hx with hx | hx
        · exact (ne_of_isBreak (by decide) hd hx).elim
        · exact (ne_of_isBreak (by decide) hd hx).elim
    | a :: y :: s =>
        obtain ⟨rfl, htail⟩ := List.cons.inj hs
        obtain ⟨rfl, -⟩ := List.cons.inj htail
        exact ⟨y, s, rfl, hx⟩
  · rintro ⟨x, t, rfl, hx⟩
    exact ⟨x, t ++ d :: z, rfl, hx⟩

omit hd in
theorem hexadecimal_none {s : Text} (h : opensHexadecimal s = false) : hexadecimal? s = none := by
  unfold hexadecimal?
  split
  · next x t =>
      rw [if_neg]
      intro hx
      rw [opensHexadecimal_iff.2 ⟨x, t, rfl, hx⟩] at h
      simp at h
  · rfl

theorem hexadecimal_append (s : Text) :
    hexadecimal? (s ++ d :: z) = (hexadecimal? s).map (·.before (d :: z)) := by
  cases hopens : opensHexadecimal s with
  | false =>
      rw [hexadecimal_none hopens, hexadecimal_none (by rw [opensHexadecimal_append hd, hopens])]
      rfl
  | true =>
      obtain ⟨x, s, rfl, hx⟩ := opensHexadecimal_iff.1 hopens
      have hdigits : Cut.leading isHexDigit (s ++ d :: z) =
          (Cut.leading isHexDigit s).before (d :: z) :=
        Cut.leading_append (foreign_break hd).hexDigit s z
      simp only [List.cons_append, hexadecimal?, if_pos hx, hdigits, Cut.before,
        nameFollows_append hd]
      split
      · rfl
      · rfl

theorem mantissa_append (s : Text) :
    mantissa? (s ++ d :: z) = (mantissa? s).map (·.before (d :: z)) := by
  have hpoint : d ≠ '.' := ne_of_isBreak (by decide) hd
  have hdigits : ∀ s, Cut.leading isDecimal (s ++ d :: z) =
      (Cut.leading isDecimal s).before (d :: z) :=
    fun s => Cut.leading_append (foreign_break hd).decimal s z
  unfold mantissa?
  rw [hdigits]
  generalize Cut.leading isDecimal s = cut
  obtain ⟨digits, rest⟩ := cut
  cases rest with
  | nil =>
      cases digits with
      | nil => simp [Cut.before, hpoint]
      | cons c digits => simp [Cut.before, hpoint]
  | cons e rest =>
      by_cases he : e = '.'
      · subst he
        cases digits with
        | nil =>
            simp only [Cut.before, List.cons_append, hdigits]
            split
            · rfl
            · rfl
        | cons c digits =>
            simp only [Cut.before, List.cons_append, hdigits]
            rfl
      · cases digits with
        | nil => simp [Cut.before, he]
        | cons c digits => simp [Cut.before, he]

theorem exponent_append (s : Text) : exponent (s ++ d :: z) = (exponent s).before (d :: z) := by
  have hdigits : ∀ s, Cut.leading isDecimal (s ++ d :: z) =
      (Cut.leading isDecimal s).before (d :: z) :=
    fun s => Cut.leading_append (foreign_break hd).decimal s z
  have he : ¬ (d = 'e' ∨ d = 'E') := by
    rintro (h | h)
    · exact ne_of_isBreak (by decide) hd h
    · exact ne_of_isBreak (by decide) hd h
  have hsign : ¬ (d = '+' ∨ d = '-') := by
    rintro (h | h)
    · exact ne_of_isBreak (by decide) hd h
    · exact ne_of_isBreak (by decide) hd h
  -- the letter and the sign are looked at one by one, so the break may be the second character
  match s with
  | [] =>
      cases z with
      | nil => rfl
      | cons f z =>
          rw [List.nil_append, exponent, if_neg he]
          rfl
  | [e] =>
      have hnone : Cut.leading isDecimal (d :: z) = ([], d :: z) := hdigits []
      rw [List.singleton_append, exponent, if_neg hsign, hnone]
      split
      · rfl
      · rfl
  | e :: sign :: s =>
      have hrest := hdigits (sign :: s)
      rw [List.cons_append] at hrest
      rw [List.cons_append, List.cons_append, exponent, exponent]
      simp only [hrest, hdigits s, Cut.before]
      split
      · split
        · split
          · rfl
          · rfl
        · split
          · rfl
          · rfl
      · rfl

theorem decimal_append (s : Text) :
    decimal? (s ++ d :: z) = (decimal? s).map (·.before (d :: z)) := by
  unfold decimal?
  rw [mantissa_append hd]
  cases mantissa? s with
  | none => rfl
  | some cut =>
      simp only [Option.map_some, Cut.before, exponent_append hd]
      rfl

theorem signFollows_append (s : Text) : signFollows (s ++ d :: z) = signFollows s := by
  cases s with
  | nil =>
      have hplus : d ≠ '+' := ne_of_isBreak (by decide) hd
      have hminus : d ≠ '-' := ne_of_isBreak (by decide) hd
      simp [signFollows, hplus, hminus]
  | cons c s => rfl

theorem digitFollows_append (s : Text) : digitFollows (s ++ d :: z) = digitFollows s := by
  cases s with
  | nil => exact (foreign_break hd).decimal
  | cons c s => rfl

theorem afterNumber_append {number rest : Text} {found : Option Cut}
    (h : afterNumber number (rest ++ d :: z) = .ok found) :
    ∃ found', afterNumber number rest = .ok found' ∧ found = found'.map (·.before (d :: z)) := by
  cases rest with
  | nil =>
      have he : ¬ (d = 'e' ∨ d = 'E') := by
        rintro (h | h)
        · exact ne_of_isBreak (by decide) hd h
        · exact ne_of_isBreak (by decide) hd h
      have hpoint : d ≠ '.' := ne_of_isBreak (by decide) hd
      simp only [List.nil_append, afterNumber, he, hpoint, (foreign_break hd).name, false_and,
        if_false, Bool.false_eq_true] at h
      cases h
      exact ⟨_, rfl, rfl⟩
  | cons c more =>
      simp only [List.cons_append, afterNumber, signFollows_append hd,
        digitFollows_append hd] at h ⊢
      split at h
      · simp at h
      · next hexponent =>
          rw [if_neg hexponent]
          split at h
          · simp at h
          · next hpoint =>
              rw [if_neg hpoint]
              split at h
              · next hname =>
                  rw [if_pos hname]
                  split at h
                  · next hall =>
                      cases h
                      exact ⟨none, by rw [if_pos hall], rfl⟩
                  · simp at h
              · next hname =>
                  cases h
                  exact ⟨_, by rw [if_neg hname], rfl⟩

theorem number_append {s : Text} {found : Option Cut} (h : number (s ++ d :: z) = .ok found) :
    ∃ found', number s = .ok found' ∧ found = found'.map (·.before (d :: z)) := by
  unfold number at h ⊢
  rw [hexadecimal_append hd, decimal_append hd, opensHexadecimal_append hd] at h
  cases hhex : hexadecimal? s with
  | some cut =>
      simp only [hhex, Option.map_some] at h
      cases h
      exact ⟨some cut, rfl, rfl⟩
  | none =>
      cases hdecimal : decimal? s with
      | none => simp [hhex, hdecimal] at h
      | some cut =>
          simp only [hhex, hdecimal, Option.map_none, Option.map_some, Cut.before] at h ⊢
          split at h
          · simp at h
          · next hopens =>
              rw [if_neg hopens]
              exact afterNumber_append hd h

end Numbers

section Words

variable (hd : isBreak d = true)
include hd

theorem pointDigit_append (c : Char) (s : Text) :
    pointDigit (c :: (s ++ d :: z)) = pointDigit (c :: s) := by
  by_cases hc : c = '.'
  · subst hc
    cases s with
    | nil => exact (foreign_break hd).digitSign
    | cons e s => rfl
  · simp [pointDigit, hc]

theorem digitName_append (c : Char) (s : Text) :
    digitName? (c :: (s ++ d :: z)) = (digitName? (c :: s)).map (·.before (d :: z)) := by
  rw [digitName?, digitName?, Cut.leading_append (foreign_break hd).name]
  split
  · rfl
  · rfl

theorem word_append (c : Char) (s : Text) :
    word? (c :: (s ++ d :: z)) = (word? (c :: s)).map (·.before (d :: z)) := by
  rw [word?, word?, Cut.leading_append (foreign_break hd).name]
  split
  · rfl
  · rfl

theorem namedPlaceholder_append (c : Char) (s : Text) :
    namedPlaceholder? (c :: (s ++ d :: z)) =
      (namedPlaceholder? (c :: s)).map (·.before (d :: z)) := by
  have hstart : isWordStart d = false := by simp [isWordStart, isWordChar_break hd]
  by_cases hc : c = ':'
  · subst hc
    cases s with
    | nil => simp [namedPlaceholder?, hstart]
    | cons e s =>
        rw [List.cons_append, namedPlaceholder?, namedPlaceholder?,
          Cut.leading_append (isWordChar_break hd)]
        split
        · rfl
        · rfl
  · simp [namedPlaceholder?, hc]

theorem isPrefixOf_append {sign : Text} (hsign : d ∉ sign) (s : Text) :
    sign.isPrefixOf (s ++ d :: z) = sign.isPrefixOf s := by
  rw [Bool.eq_iff_iff, List.isPrefixOf_iff_prefix, List.isPrefixOf_iff_prefix]
  constructor
  · intro h
    rcases List.prefix_or_prefix_of_prefix h (List.prefix_append s (d :: z)) with h' | ⟨more, rfl⟩
    · exact h'
    · -- the sign cannot go on behind the text, where the break stands
      have hmore := List.prefix_append_right_inj s |>.1 h
      cases more with
      | nil => simp
      | cons e more =>
          obtain ⟨rfl, -⟩ := List.cons_prefix_cons.1 hmore
          simp at hsign
  · exact fun h => h.trans (List.prefix_append s _)

theorem operator_append (s : Text) :
    operator? (s ++ d :: z) = (operator? s).map (·.before (d :: z)) := by
  have hsigns : ∀ sign ∈ operators, d ∉ sign := by
    intro sign hsign hmem
    have hbreaks : operators.all (·.all (!isBreak ·)) = true := by decide +kernel
    have hnot := List.all_eq_true.1 (List.all_eq_true.1 hbreaks sign hsign) d hmem
    simp [hd] at hnot
  have hfind : operators.find? (·.isPrefixOf (s ++ d :: z)) =
      operators.find? (·.isPrefixOf s) := by
    rw [← List.head?_filter, ← List.head?_filter]
    apply congrArg
    apply List.filter_congr
    intro sign hsign
    exact isPrefixOf_append hd (hsigns sign hsign) s
  unfold operator?
  rw [hfind]
  cases hsign : operators.find? (·.isPrefixOf s) with
  | none => rfl
  | some sign =>
      have hprefix := List.find?_some hsign
      have hle := (List.isPrefixOf_iff_prefix.1 hprefix).length_le
      simp [Cut.before, List.drop_append_of_le_length hle]

end Words

section Variables

theorem not_isVariableChar {quote : Char} (hquote : IsDelimiter quote) :
    isVariableChar quote = false := by
  rcases hquote with rfl | rfl | rfl
  · decide
  · decide
  · decide

/-- A name between delimiters ends at the first of them. -/
theorem variableName_closed {quote : Char} {name : Text} (hquote : IsDelimiter quote)
    (hname : quote ∉ name) (rest : Text) :
    variableName? (quote :: (name ++ quote :: rest)) = some (quote :: name ++ [quote], rest) := by
  have hall : ∀ c ∈ name, (c != quote) = true := by
    intro c hc
    have : c ≠ quote := by
      rintro rfl
      exact hname hc
    simpa using this
  have hleading : Cut.leading (· != quote) (name ++ quote :: rest) = (name, quote :: rest) := by
    rw [Cut.leading, List.takeWhile_append_of_pos hall, List.dropWhile_append_of_pos hall]
    simp
  unfold IsDelimiter at hquote
  rw [variableName?, not_isVariableChar hquote, if_neg (by simp), if_pos hquote, hleading]

theorem variableName_open {quote : Char} {s : Text} (hquote : IsDelimiter quote)
    (hs : quote ∉ s) : variableName? (quote :: s) = none := by
  have hall : ∀ c ∈ s, (c != quote) = true := by
    intro c hc
    have : c ≠ quote := by
      rintro rfl
      exact hs hc
    simpa using this
  have hdrop : s.dropWhile (· != quote) = [] := by simpa using hall
  unfold IsDelimiter at hquote
  rw [variableName?, not_isVariableChar hquote, if_neg (by simp), if_pos hquote, Cut.leading, hdrop]

theorem variableName_none {c : Char} {s : Text} (hc : isVariableChar c = false)
    (hquote : ¬ IsDelimiter c) : variableName? (c :: s) = none := by
  unfold IsDelimiter at hquote
  rw [variableName?, hc, if_neg (by simp), if_neg hquote]

theorem agree_variableName (hd : isBreak d = true) (s : Text) :
    Cut.Agree (d :: z) (variableName? s) (variableName? (s ++ d :: z)) := by
  cases s with
  | nil =>
      have hdelimiter : ¬ IsDelimiter d := by
        rintro (h | h | h)
        · exact ne_of_isBreak (by decide) hd h
        · exact ne_of_isBreak (by decide) hd h
        · exact ne_of_isBreak (by decide) hd h
      rw [List.nil_append, variableName_none (isVariableChar_break hd) hdelimiter]
      exact Cut.agree_of_map rfl
  | cons c s =>
      cases hc : isVariableChar c with
      | true =>
          apply Cut.agree_of_map
          rw [List.cons_append, variableName?, variableName?, if_pos hc, if_pos hc,
            ← List.cons_append, Cut.leading_append (isVariableChar_break hd)]
          rfl
      | false =>
          by_cases hquote : IsDelimiter c
          · by_cases hs : c ∈ s
            · obtain ⟨name, rest, rfl, hname⟩ := List.eq_append_cons_of_mem hs
              apply Cut.agree_of_map
              rw [List.cons_append, List.append_assoc, List.cons_append,
                variableName_closed hquote hname, variableName_closed hquote hname]
              rfl
            · rw [variableName_open hquote hs]
              refine ⟨fun _ => rfl, ?_⟩
              intro text rest hlong
              exfalso
              -- the delimiter that ends the name lies behind the break
              by_cases hz : c ∈ d :: z
              · obtain ⟨name, more, hname, hfirst⟩ := List.eq_append_cons_of_mem hz
                have hopen : c ∉ s ++ name := by simp [hs, hfirst]
                have hclosed := variableName_closed hquote hopen more
                rw [List.append_assoc, ← hname] at hclosed
                rw [List.cons_append, hclosed] at hlong
                have hlength := congrArg (fun cut => (Option.get! cut).2.length) hlong
                have hz := congrArg List.length hname
                simp only [Option.get!_some, List.length_append, List.length_cons] at hlength hz
                omega
              · rw [List.cons_append, variableName_open hquote (by simp [hs] at hz ⊢; exact hz)]
                  at hlong
                simp at hlong
          · rw [List.cons_append, variableName_none hc hquote, variableName_none hc hquote]
            exact Cut.agree_of_map rfl

theorem atName_none {c : Char} (hc : c ≠ '@') (s : Text) : atName? (c :: s) = none := by
  unfold atName?
  split
  · next heq => exact (hc (List.cons.inj heq).1).elim
  · next heq => exact (hc (List.cons.inj heq).1).elim
  · rfl

theorem atName_one {s : Text} (hs : s.head? ≠ some '@') :
    atName? ('@' :: s) = (variableName? s).map (Cut.after ['@']) := by
  unfold atName?
  split
  · next heq =>
      obtain ⟨-, rfl⟩ := List.cons.inj heq
      simp at hs
  · next heq =>
      obtain ⟨-, rfl⟩ := List.cons.inj heq
      rfl
  · next hother => exact (hother s rfl).elim

theorem agree_atName (hd : isBreak d = true) (c : Char) (s : Text) :
    Cut.Agree (d :: z) (atName? (c :: s)) (atName? (c :: (s ++ d :: z))) := by
  by_cases hc : c = '@'
  · subst hc
    by_cases hs : s.head? = some '@'
    · obtain ⟨s, rfl⟩ := List.head?_eq_some_iff.1 hs
      exact (agree_variableName hd s).after ['@', '@']
    · have hlong : (s ++ d :: z).head? ≠ some '@' := by
        cases s with
        | nil => simpa using ne_of_isBreak (by decide) hd
        | cons e s => exact hs
      rw [atName_one hs, atName_one hlong]
      exact (agree_variableName hd s).after ['@']
  · rw [atName_none hc, atName_none hc]
    exact Cut.agree_of_map rfl

end Variables

variable (hd : isBreak d = true)
include hd

theorem symbol_of_append {c : Char} {s text rest : Text} {kind : TokenKind}
    (h : symbol c (s ++ d :: z) = .ok (kind, text, rest ++ d :: z)) :
    symbol c s = .ok (kind, text, rest) := by
  -- a token of one character leaves what is behind it
  have hsingle : ∀ k, Except.ok (ε := LexFault) (k, [c], s ++ d :: z) =
      .ok (kind, text, rest ++ d :: z) → Except.ok (ε := LexFault) (k, [c], s) =
        .ok (kind, text, rest) := by
    intro k h
    obtain ⟨rfl, hcut⟩ := Prod.mk.inj (Except.ok.inj h)
    obtain ⟨rfl, hrest⟩ := Prod.mk.inj hcut
    rw [List.append_cancel_right hrest]
  unfold symbol at h ⊢
  apply (Cut.agree_of_map (word_append hd c s)).orElse
    (k := fun text => if keywords.contains (upper text) then .keyword else .identifier) _ h
  intro h
  apply (agree_atName hd c s).orElse (k := fun _ => .identifier) _ h
  intro h
  split at h
  · next hc =>
      rw [if_pos hc]
      exact hsingle _ h
  · next hc =>
      rw [if_neg hc]
      apply (Cut.agree_of_map (namedPlaceholder_append hd c s)).orElse
        (k := fun _ => .placeholder) _ h
      intro h
      apply (Cut.agree_of_map (operator_append hd (c :: s))).orElse (k := fun _ => .operator) _ h
      intro h
      split at h
      · next hmark =>
          rw [if_pos hmark]
          exact hsingle _ h
      · simp at h

theorem numeric_of_append {afterName : Bool} {c : Char} {s text rest : Text} {kind : TokenKind}
    (h : numeric afterName c (s ++ d :: z) = .ok (kind, text, rest ++ d :: z)) :
    numeric afterName c s = .ok (kind, text, rest) := by
  unfold numeric at h ⊢
  split at h
  · next hpoint =>
      rw [if_pos hpoint]
      exact symbol_of_append hd h
  · next hpoint =>
      rw [if_neg hpoint]
      cases hnumber : number (c :: (s ++ d :: z)) with
      | error fault => simp [hnumber] at h
      | ok found =>
          obtain ⟨found, hshort, rfl⟩ := number_append hd (s := c :: s) hnumber
          rw [hnumber] at h
          rw [hshort]
          cases found with
          | some cut =>
              simp only [Option.map_some] at h ⊢
              obtain ⟨rfl, hcut⟩ := Prod.mk.inj (Except.ok.inj h)
              rw [Cut.before_inj hcut]
          | none =>
              apply (Cut.agree_of_map (digitName_append hd c s)).orElse
                (k := fun _ => .identifier) _ h
              exact symbol_of_append hd

end Lexeme

section Lexeme

variable {afterName : Bool} {c d : Char} {s z : Text}

theorem lexeme_blank (hc : isBlank c = true) :
    lexeme afterName c s = .ok (.whitespace, Cut.leading isBlank (c :: s)) := by
  unfold lexeme
  rw [if_pos hc]

theorem lexeme_line {cut : Cut} (hc : isBlank c = false)
    (hline : Lexeme.lineComment? (c :: s) = some cut) :
    lexeme afterName c s = .ok (.comment, cut) := by
  unfold lexeme
  rw [hc, if_neg (by simp), hline]

theorem lexeme_block (body : Text) :
    lexeme afterName '/' ('*' :: body) =
      match (Lexeme.throughClose body).map (Cut.after ['/', '*']) with
      | some cut => .ok (.comment, cut)
      | none => .error .unterminatedComment := by
  have hread : lexeme afterName '/' ('*' :: body) =
      match Lexeme.throughClose body with
      | some cut => .ok (.comment, cut.after ['/', '*'])
      | none => .error .unterminatedComment :=
    rfl
  rw [hread]
  cases Lexeme.throughClose body with
  | none => rfl
  | some cut => rfl

/-- What is neither blank nor a comment. -/
theorem lexeme_code (hc : isBlank c = false) (hline : Lexeme.lineComment? (c :: s) = none)
    (hblock : c = '/' → s.head? ≠ some '*') :
    lexeme afterName c s =
      if c = backtick then
        match Lexeme.quoted? c s with
        | some cut => .ok (.quotedIdentifier, cut)
        | none => .error .unterminatedIdentifier
      else if c = '\x27' ∨ c = '"' then
        match Lexeme.quoted? c s with
        | some cut => .ok (.string, cut)
        | none => .error .unterminatedString
      else if isDigitSign c || Lexeme.pointDigit (c :: s) then Lexeme.numeric afterName c s
      else Lexeme.symbol c s := by
  unfold lexeme
  rw [hc, if_neg (by simp), hline]
  dsimp only
  split
  · exact (hblock rfl rfl).elim
  · rfl

/-- A lexeme that ends before a break is read in the same way if the text ends at the break. Only
two hyphens by themselves need a blank there: at the end of a text they begin a comment. -/
theorem lexeme_of_append {text rest : Text} {kind : TokenKind} (hd : isBreak d = true)
    (hhyphens : c = '-' → s = ['-'] → isBlank d = true)
    (h : lexeme afterName c (s ++ d :: z) = .ok (kind, text, rest ++ d :: z)) :
    lexeme afterName c s = .ok (kind, text, rest) := by
  cases hc : isBlank c with
  | true =>
      rw [lexeme_blank hc] at h ⊢
      obtain ⟨rfl, hcut⟩ := Prod.mk.inj (Except.ok.inj h)
      rw [← List.cons_append] at hcut
      rw [Cut.leading_of_append hcut]
  | false =>
      have hline := Lexeme.agree_lineComment (z := z) hd hhyphens
      cases hlong : Lexeme.lineComment? (c :: (s ++ d :: z)) with
      | some cut =>
          rw [lexeme_line hc hlong] at h
          cases h
          exact lexeme_line hc (hline.2 _ _ hlong)
      | none =>
          by_cases hblock : c = '/' ∧ s.head? = some '*'
          · obtain ⟨rfl, hs⟩ := hblock
            obtain ⟨body, rfl⟩ := List.head?_eq_some_iff.1 hs
            rw [List.cons_append, lexeme_block] at h
            rw [lexeme_block]
            apply ((Lexeme.agree_close (d :: z) body).after ['/', '*']).orElse
              (k := fun _ => .comment) _ h
            simp
          · have hshort : c = '/' → s.head? ≠ some '*' := fun hc hs => hblock ⟨hc, hs⟩
            have hlongHead : c = '/' → (s ++ d :: z).head? ≠ some '*' := by
              intro hc
              cases s with
              | nil => simpa using ne_of_isBreak (by decide) hd
              | cons e s => exact hshort hc
            rw [lexeme_code hc hlong hlongHead, Lexeme.pointDigit_append hd] at h
            rw [lexeme_code hc (hline.1 hlong) hshort]
            split at h
            · next hquote =>
                have hne : d ≠ c := by
                  rintro rfl
                  exact ne_of_isBreak (by decide) hd hquote
                rw [if_pos hquote]
                apply (Lexeme.agree_quoted hne s).orElse (k := fun _ => .quotedIdentifier) _ h
                simp
            · next hbacktick =>
                rw [if_neg hbacktick]
                split at h
                · next hquote =>
                    have hne : d ≠ c := by
                      rintro rfl
                      rcases hquote with hquote | hquote
                      · exact ne_of_isBreak (by decide) hd hquote
                      · exact ne_of_isBreak (by decide) hd hquote
                    rw [if_pos hquote]
                    apply (Lexeme.agree_quoted hne s).orElse (k := fun _ => .string) _ h
                    simp
                · next hquote =>
                    rw [if_neg hquote]
                    split at h
                    · next hnumeric =>
                        rw [if_pos hnumeric]
                        exact Lexeme.numeric_of_append hd h
                    · next hnumeric =>
                        rw [if_neg hnumeric]
                        exact Lexeme.symbol_of_append hd h

end Lexeme

end Restate
