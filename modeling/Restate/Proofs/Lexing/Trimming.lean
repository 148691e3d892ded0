import Restate.Proofs.Lexing.Stretch

/-!
# Stripping a text keeps its tokens

Blanks at the ends of a text are taken from white space and from a line comment only, since no other
lexeme ends in a blank. Main statement: a stripped text is read as the same significant tokens
(`Lexes.strip`).
-/

namespace Restate

open Text

namespace Lexeme

section Ends

theorem getLast?_after {head : Text} {cut : Cut} {c : Char} (h : cut.1.getLast? = some c) :
    (cut.after head).1.getLast? = some c := by
  unfold Cut.after
  rw [List.getLast?_append, h, Option.some_or]

theorem getLast?_throughQuote {quote : Char} {escapes : Bool} {s : Text} {cut : Cut}
    (h : throughQuote quote escapes s = some cut) : cut.1.getLast? = some quote := by
  fun_induction throughQuote quote escapes s generalizing cut with
  | case1 => simp at h
  | case2 => simp at h
  | case3 =>
      cases h
      rfl
  | case4 => simp at h
  | case5 _ _ _ _ ih =>
      obtain ⟨cut, hcut, rfl⟩ := Option.map_eq_some_iff.1 h
      exact getLast?_after (ih hcut)
  | case6 _ _ ih =>
      obtain ⟨cut, hcut, rfl⟩ := Option.map_eq_some_iff.1 h
      exact getLast?_after (ih hcut)
  | case7 =>
      cases h
      rfl
  | case8 _ _ _ _ _ ih =>
      obtain ⟨cut, hcut, rfl⟩ := Option.map_eq_some_iff.1 h
      exact getLast?_after (ih hcut)

theorem getLast?_throughClose {s : Text} {cut : Cut} (h : throughClose s = some cut) :
    cut.1.getLast? = some '/' := by
  fun_induction throughClose s generalizing cut with
  | case1 => simp at h
  | case2 =>
      cases h
      rfl
  | case3 _ _ _ ih =>
      obtain ⟨cut, hcut, rfl⟩ := Option.map_eq_some_iff.1 h
      exact getLast?_after (ih hcut)

variable {c : Char} {s : Text} {cut : Cut}

/-- A blank is foreign to names and numbers. -/
theorem endsSolid_of_foreign (h : ∀ x, Foreign x → x ∉ s) : EndsSolid s := by
  apply endsSolid_of_forall
  intro c hc
  cases hblank : isBlank c with
  | false => rfl
  | true => exact (h c (foreign_break (Bool.or_eq_true_iff.2 (.inr hblank))) hc).elim

theorem endsSolid_quoted {quote : Char} (h : quoted? quote s = some cut)
    (hquote : isBlank quote = false) : EndsSolid cut.1 := by
  obtain ⟨cut, hcut, rfl⟩ := Option.map_eq_some_iff.1 h
  exact endsSolid_of_getLast? (getLast?_after (getLast?_throughQuote hcut)) hquote

theorem endsSolid_variableName (h : variableName? s = some cut) : EndsSolid cut.1 := by
  rcases variableName_cases h with hbare | ⟨quote, name, hquote, -, htext⟩
  · apply endsSolid_of_foreign
    intro x hx hmem
    have hpoint : x ≠ '.' := hx.ne_of_sign (by simp)
    simpa [isVariableChar, hx.name, hpoint] using hbare x hmem
  · rw [htext]
    apply endsSolid_of_getLast? List.getLast?_concat
    rcases hquote with rfl | rfl | rfl
    · decide
    · decide
    · decide

theorem endsSolid_atName (h : atName? s = some cut) : EndsSolid cut.1 := by
  unfold atName? at h
  split at h
  · obtain ⟨cut, hcut, rfl⟩ := Option.map_eq_some_iff.1 h
    exact (endsSolid_variableName hcut).append (takes_variableName hcut).1 _
  · obtain ⟨cut, hcut, rfl⟩ := Option.map_eq_some_iff.1 h
    exact (endsSolid_variableName hcut).append (takes_variableName hcut).1 _
  · simp at h

/-- Only white space and line comments may end in a blank. -/
theorem Reads.endsSolid {kind : TokenKind} (h : Reads c s kind cut) :
    kind = .whitespace ∨ kind = .comment ∧ lineComment? (c :: s) = some cut ∨
      EndsSolid cut.1 := by
  cases h with
  | blanks _ => exact .inl rfl
  | line hline => exact .inr (.inl ⟨rfl, hline⟩)
  | block hc hs hclose =>
      right; right
      exact endsSolid_of_getLast? (getLast?_after (getLast?_throughClose hclose)) (by decide)
  | name hc hquoted =>
      right; right
      exact endsSolid_quoted hquoted (by rw [hc]; decide)
  | literal hc hquoted =>
      right; right
      apply endsSolid_quoted hquoted
      rcases hc with rfl | rfl
      · decide
      · decide
  | number hn =>
      right; right
      exact endsSolid_of_foreign fun x hx => hx.not_mem_number hn
  | digits hd =>
      right; right
      exact endsSolid_of_foreign fun x hx => hx.not_mem_digitName hd
  | keyword hw =>
      right; right
      exact endsSolid_of_foreign fun x hx => hx.not_mem_word hw
  | word hw =>
      right; right
      exact endsSolid_of_foreign fun x hx => hx.not_mem_word hw
  | atName hv =>
      right; right
      exact endsSolid_atName hv
  | position hc =>
      right; right
      exact endsSolid_of_getLast? (c := c) rfl (by rw [hc]; decide)
  | named hp =>
      right; right
      obtain ⟨name, htext, -, hname⟩ := placeholder_name hp
      rw [htext]
      apply endsSolid_of_forall
      intro d hd
      rcases List.mem_cons.1 hd with rfl | hd
      · decide
      · exact isBlank_of_isWordChar (hname d hd)
  | sign ho =>
      right; right
      obtain ⟨sign, hfind, rfl⟩ := Option.map_eq_some_iff.1 ho
      have hsolid : operators.all (·.all (!isBlank ·)) = true := by decide
      apply endsSolid_of_forall
      intro d hd
      have hsign := List.all_eq_true.1 hsolid sign (List.mem_of_find?_eq_some hfind)
      simpa using List.all_eq_true.1 hsign d hd
  | mark hm =>
      right; right
      have hsolid : punctuation.all (!isBlank ·) = true := by decide
      exact endsSolid_of_getLast? (c := c) rfl (by simpa using List.all_eq_true.1 hsolid c hm)

end Ends

section LineComments

variable {s : Text}

theorem line_eq_self_iff : line s = (s, []) ↔ '\n' ∉ s := by
  unfold line Cut.leading
  constructor
  · intro h hmem
    have htake : s.takeWhile (· != '\n') = s := congrArg Prod.fst h
    rw [← htake] at hmem
    simpa using List.mem_takeWhile_imp hmem
  · intro h
    have hall : ∀ c ∈ s, (c != '\n') = true := by
      intro c hc
      have : c ≠ '\n' := by
        rintro rfl
        exact h hc
      simpa using this
    rw [List.takeWhile_eq_self_iff.2 hall, List.dropWhile_eq_nil_iff.2 hall]

theorem line_rdropWhile (h : line s = (s, [])) :
    line (s.rdropWhile isBlank) = (s.rdropWhile isBlank, []) := by
  rw [line_eq_self_iff] at h ⊢
  exact fun hmem => h ((List.rdropWhile_prefix isBlank s).subset hmem)

theorem hyphensOpen_rdropWhile (h : hyphensOpen s = true) :
    hyphensOpen (s.rdropWhile isBlank) = true := by
  obtain ⟨dropped, hdropped⟩ := List.rdropWhile_prefix isBlank s
  generalize s.rdropWhile isBlank = kept at hdropped
  subst hdropped
  cases kept with
  | nil => rfl
  | cons c kept => exact h

/-- A line comment stays one without the blanks at its end. -/
theorem lineComment_rdropWhile (h : lineComment? s = some (s, [])) :
    lineComment? (s.rdropWhile isBlank) = some (s.rdropWhile isBlank, []) := by
  unfold lineComment? at h
  split at h
  · next s =>
      have hline : line s = (s, []) := by
        obtain ⟨htext, hrest⟩ := Prod.mk.inj (Option.some.inj h)
        exact Prod.ext (List.cons.inj htext).2 hrest
      rw [rdropWhile_cons_other (by decide), lineComment_hash, line_rdropWhile hline]
      rfl
  · next s =>
      split at h
      · next hopen =>
          have hline : line s = (s, []) := by
            obtain ⟨htext, hrest⟩ := Prod.mk.inj (Option.some.inj h)
            exact Prod.ext (List.cons.inj (List.cons.inj htext).2).2 hrest
          rw [rdropWhile_cons_other (by decide), rdropWhile_cons_other (by decide),
            lineComment_hyphens, if_pos (hyphensOpen_rdropWhile hopen), line_rdropWhile hline]
          rfl
      · simp at h
  · simp at h

end LineComments

end Lexeme

namespace Lexes

variable {a : Bool} {s : Text} {ts : List Token}

/-- Behind a text that may be cut at a blank, the blank and what follows it do not matter. -/
theorem cut_blank {d : Char} {z left : Text} (hd : isBlank d = true)
    (h : Lexes a (s ++ d :: z) ts (left ++ d :: z)) : Lexes a s ts left :=
  h.cut (Bool.or_eq_true_iff.2 (.inr hd)) fun _ _ _ _ _ => hd

theorem cut_rdropWhile {last : Text} (h : Lexes a (s ++ last) ts last) :
    Lexes a (s ++ last.rdropWhile isBlank) ts (last.rdropWhile isBlank) := by
  have hlast : last.rdropWhile isBlank ++ last.rtakeWhile isBlank = last :=
    List.rdropWhile_append_rtakeWhile
  cases hdropped : last.rtakeWhile isBlank with
  | nil =>
      rw [hdropped, List.append_nil] at hlast
      rwa [hlast]
  | cons d z =>
      have hd : isBlank d = true := List.mem_rtakeWhile_imp (hdropped ▸ List.mem_cons_self)
      rw [hdropped] at hlast
      rw [← hlast, ← List.append_assoc] at h
      exact h.cut_blank hd

/-- Without the blanks in front. -/
theorem trimStart (h : Lexes a s ts []) :
    ∃ us, Lexes a (s.dropWhile isBlank) us [] ∧ significant us = significant ts := by
  cases h with
  | done => exact ⟨[], .done, rfl⟩
  | @token a c more left rest t ts hlex h =>
      cases hc : isBlank c with
      | true =>
          rw [lexeme_blank hc] at hlex
          obtain ⟨hkind, hcut⟩ := Prod.mk.inj (Except.ok.inj hlex)
          obtain ⟨-, rfl⟩ := Prod.mk.inj hcut
          have htrivia : t.isTrivia = true := by simp [Token.isTrivia, ← hkind, TokenKind.isTrivia]
          refine ⟨ts, ?_, by simp [significant, htrivia]⟩
          simpa [Token.nameAfter, htrivia] using h
      | false =>
          rw [List.dropWhile_cons_of_neg (by simp [hc])]
          exact ⟨t :: ts, .token hlex h, rfl⟩

/-- Without the blanks at the end, which a line comment may lose to no effect. -/
theorem trimEnd (h : Lexes a s ts []) :
    ∃ us, Lexes a (s.rdropWhile isBlank) us [] ∧ significant us = significant ts := by
  -- the last token decides: white space goes, a line comment gets shorter, nothing else ends blank
  induction ts using List.reverseRecOn generalizing s with
  | nil =>
      cases h
      exact ⟨[], .done, rfl⟩
  | append_singleton ts t ih =>
      obtain ⟨last, hts, ht⟩ := append_iff.1 h
      obtain rfl := hts.source
      have hlast : last = t.text := by simpa [sourceText] using ht.source
      cases ht with
      | @token b c more left rest _ _ hlex hdone =>
          cases hdone
          rcases (reads_of_lexeme hlex).endsSolid with hwhite | ⟨hcomment, hline⟩ | hsolid
          · have hread : t.IsRead := ⟨_, _, _, _, hlex⟩
            have hblank := hread.blank hwhite
            rw [← hlast] at hblank
            rw [rdropWhile_append_blank (List.all_eq_true.2 hblank)]
            have hcut : Lexes a _ ts [] := cut_blank (hblank c (by simp)) hts
            obtain ⟨us, hus, hsignificant⟩ := ih hcut
            refine ⟨us, hus, ?_⟩
            simpa [significant, Token.isTrivia, hwhite, TokenKind.isTrivia] using hsignificant
          · have hc : isBlank c = false := by
              cases hc : isBlank c with
              | false => rfl
              | true =>
                  rw [lexeme_blank hc, hcomment] at hlex
                  simp at hlex
            rw [← hlast] at hline
            have hkept := Lexeme.lineComment_rdropWhile hline
            have hcut := hts.cut_rdropWhile
            rw [rdropWhile_append_other (by simp [hc])]
            rw [rdropWhile_cons_other hc] at hkept hcut ⊢
            let kept : Token := { t with text := c :: more.rdropWhile isBlank }
            refine ⟨ts ++ [kept], append_iff.2 ⟨_, hcut, .token ?_ .done⟩, ?_⟩
            · rw [lexeme_line hc hkept, ← hcomment]
            · simp [significant, Token.isTrivia, kept, hcomment, TokenKind.isTrivia]
          · rw [← hlast] at hsolid
            rw [(hsolid.append (by simp) _).rdropWhile_eq]
            exact ⟨_, h, rfl⟩

/-- A stripped text is read as the same significant tokens. -/
theorem strip (h : Lexes a s ts []) :
    ∃ us, Lexes a (Text.strip s) us [] ∧ significant us = significant ts := by
  obtain ⟨us, hus, hstart⟩ := h.trimStart
  obtain ⟨vs, hvs, hend⟩ := hus.trimEnd
  exact ⟨vs, hvs, hend.trans hstart⟩

end Lexes

end Restate
