import Restate.Lexeme

/-!
# Lexemes make up their text

Each reader's lexeme and the rest after it are the text again, and a lexeme is never empty. Reading
one lexeme after another therefore ends, and covers the text.
-/

namespace Restate

open Text

namespace Cut

/-- The cut is one of the text, and its lexeme is not empty. -/
def Takes (cut : Cut) (s : Text) : Prop :=
  cut.1 ≠ [] ∧ cut.of s

theorem takes_after {c : Char} (head : Text) {s : Text} {cut : Cut} (h : cut.of s) :
    (cut.after (c :: head)).Takes (c :: head ++ s) :=
  ⟨by simp [after], of_after _ h⟩

theorem takes_leading {p : Char → Bool} {c : Char} {s : Text} (hc : p c = true) :
    (leading p (c :: s)).Takes (c :: s) :=
  ⟨by simp [leading, hc], of_leading p _⟩

theorem Takes.length_lt {cut : Cut} {s : Text} (h : cut.Takes s) :
    cut.2.length < s.length := by
  obtain ⟨hne, hof⟩ := h
  have := List.length_pos_iff.2 hne
  rw [← hof, List.length_append]
  omega

end Cut

namespace Lexeme

theorem of_throughClose {s : Text} {cut : Cut} (h : throughClose s = some cut) : cut.of s := by
  fun_induction throughClose s generalizing cut with
  | case1 => simp at h
  | case2 s => cases h; rfl
  | case3 c s _ ih =>
    obtain ⟨rest, hrest, rfl⟩ := Option.map_eq_some_iff.1 h
    exact Cut.of_after [c] (ih hrest)

theorem of_throughQuote {quote : Char} {escapes : Bool} {s : Text} {cut : Cut}
    (h : throughQuote quote escapes s = some cut) : cut.of s := by
  fun_induction throughQuote quote escapes s generalizing cut with
  | case1 => simp at h
  | case2 => simp at h
  | case3 => cases h; rfl
  | case4 => simp at h
  | case5 c d s _ ih =>
    obtain ⟨rest, hrest, rfl⟩ := Option.map_eq_some_iff.1 h
    exact Cut.of_after [c, d] (ih hrest)
  | case6 d s ih =>
    obtain ⟨rest, hrest, rfl⟩ := Option.map_eq_some_iff.1 h
    exact Cut.of_after [_, _] (ih hrest)
  | case7 => cases h; rfl
  | case8 c d s _ _ ih =>
    obtain ⟨rest, hrest, rfl⟩ := Option.map_eq_some_iff.1 h
    exact Cut.of_after [c] (ih hrest)

theorem takes_lineComment {s : Text} {cut : Cut} (h : lineComment? s = some cut) :
    cut.Takes s := by
  unfold lineComment? at h
  split at h
  · cases h
    exact Cut.takes_after [] (Cut.of_leading _ _)
  · split at h
    · cases h
      exact Cut.takes_after ['-'] (Cut.of_leading _ _)
    · simp at h
  · simp at h

theorem takes_quoted {quote : Char} {s : Text} {cut : Cut} (h : quoted? quote s = some cut) :
    cut.Takes (quote :: s) := by
  obtain ⟨rest, hrest, rfl⟩ := Option.map_eq_some_iff.1 h
  exact Cut.takes_after [] (of_throughQuote hrest)

theorem takes_hexadecimal {s : Text} {cut : Cut} (h : hexadecimal? s = some cut) :
    cut.Takes s := by
  unfold hexadecimal? at h
  split at h
  · next x s =>
    split at h
    · simp only at h
      split at h
      · simp at h
      · cases h
        exact ⟨by simp, by simp [Cut.of, Cut.leading]⟩
    · simp at h
  · simp at h

theorem takes_mantissa {s : Text} {cut : Cut} (h : mantissa? s = some cut) : cut.Takes s := by
  have hs := Cut.of_leading isDecimal s
  unfold mantissa? at h
  split at h
  · next rest heq =>
    rw [heq] at hs
    simp only at h
    split at h
    · simp at h
    · cases h
      exact ⟨by simp, by simpa [Cut.of, Cut.leading] using hs⟩
  · simp at h
  · next digits rest hne heq =>
    rw [heq] at hs
    cases h
    refine ⟨by simp [Cut.after], ?_⟩
    rw [← show digits ++ ['.'] ++ rest = s by simpa [Cut.of] using hs]
    exact Cut.of_after _ (Cut.of_leading _ _)
  · next digits rest hne _ heq =>
    rw [heq] at hs
    cases h
    exact ⟨fun h => hne h, hs⟩

theorem of_exponent (s : Text) : (exponent s).of s := by
  unfold exponent
  split
  · next e sign s =>
    split
    · split
      · simp only
        split
        · rfl
        · simp [Cut.of, Cut.leading]
      · have := Cut.of_leading isDecimal (sign :: s)
        simp only
        split
        · rfl
        · simpa [Cut.of] using this
    · rfl
  · rfl

theorem takes_decimal {s : Text} {cut : Cut} (h : decimal? s = some cut) : cut.Takes s := by
  obtain ⟨⟨text, rest⟩, hm, rfl⟩ := Option.map_eq_some_iff.1 h
  obtain ⟨hne, hof⟩ := takes_mantissa hm
  refine ⟨by simp [Cut.after] at hne ⊢; exact fun h => absurd h hne, ?_⟩
  rw [← show text ++ rest = s from hof]
  exact Cut.of_after _ (of_exponent rest)

theorem takes_afterNumber {text rest : Text} {cut : Cut} (hne : text ≠ [])
    (h : afterNumber text rest = .ok (some cut)) : cut.Takes (text ++ rest) := by
  unfold afterNumber at h
  split at h
  · cases h
    exact ⟨hne, rfl⟩
  · split at h
    · simp at h
    · split at h
      · simp at h
      · split at h
        · split at h <;> simp at h
        · cases h
          exact ⟨hne, rfl⟩

theorem takes_number {s : Text} {cut : Cut} (h : number s = .ok (some cut)) : cut.Takes s := by
  unfold number at h
  split at h
  · next hex =>
    cases h
    exact takes_hexadecimal hex
  · split at h
    · simp at h
    · next text rest hdec =>
      obtain ⟨hne, hof⟩ := takes_decimal hdec
      split at h
      · simp at h
      · rw [← show text ++ rest = s from hof]
        exact takes_afterNumber hne h

theorem takes_digitName {s : Text} {cut : Cut} (h : digitName? s = some cut) : cut.Takes s := by
  unfold digitName? at h
  split at h
  · simp at h
  · split at h
    · cases h
      exact Cut.takes_after [] (Cut.of_leading _ _)
    · simp at h

theorem takes_word {s : Text} {cut : Cut} (h : word? s = some cut) : cut.Takes s := by
  unfold word? at h
  split at h
  · simp at h
  · split at h
    · cases h
      exact Cut.takes_after [] (Cut.of_leading _ _)
    · simp at h

theorem takes_variableName {s : Text} {cut : Cut} (h : variableName? s = some cut) :
    cut.Takes s := by
  unfold variableName? at h
  split at h
  · simp at h
  · next c s =>
    split at h
    · next hc =>
      cases h
      exact Cut.takes_leading hc
    · split at h
      · have hs := Cut.of_leading (· != c) s
        split at h
        · next name d rest heq =>
          rw [heq] at hs
          cases h
          exact ⟨by simp, by simpa [Cut.of] using hs⟩
        · simp at h
      · simp at h

theorem takes_atName {s : Text} {cut : Cut} (h : atName? s = some cut) : cut.Takes s := by
  unfold atName? at h
  split at h
  · obtain ⟨rest, hrest, rfl⟩ := Option.map_eq_some_iff.1 h
    exact Cut.takes_after ['@'] (takes_variableName hrest).2
  · obtain ⟨rest, hrest, rfl⟩ := Option.map_eq_some_iff.1 h
    exact Cut.takes_after [] (takes_variableName hrest).2
  · simp at h

theorem takes_namedPlaceholder {s : Text} {cut : Cut} (h : namedPlaceholder? s = some cut) :
    cut.Takes s := by
  unfold namedPlaceholder? at h
  split at h
  · next c s =>
    split at h
    · cases h
      exact Cut.takes_after [c] (Cut.of_leading _ _)
    · simp at h
  · simp at h

theorem ne_nil_of_mem_operators {sign : Text} (h : sign ∈ operators) : sign ≠ [] := by
  simp only [operators, List.mem_cons, List.not_mem_nil, or_false] at h
  rcases h with h | h | h | h | h | h | h | h | h | h | h | h | h | h | h | h | h | h | h | h
    | h | h | h | h | h <;> simp [h]

theorem takes_operator {s : Text} {cut : Cut} (h : operator? s = some cut) : cut.Takes s := by
  obtain ⟨sign, hfind, rfl⟩ := Option.map_eq_some_iff.1 h
  have hpre := List.find?_some hfind
  obtain ⟨rest, hrest⟩ := List.isPrefixOf_iff_prefix.1 hpre
  refine ⟨ne_nil_of_mem_operators (List.mem_of_find?_eq_some hfind), ?_⟩
  simp [Cut.of, ← hrest]

theorem takes_symbol {c : Char} {s : Text} {kind : TokenKind} {cut : Cut}
    (h : symbol c s = .ok (kind, cut)) : cut.Takes (c :: s) := by
  unfold symbol at h
  split at h
  · next hw =>
    cases h
    exact takes_word hw
  · split at h
    · next hv =>
      cases h
      exact takes_atName hv
    · split at h
      · cases h
        exact ⟨by simp, rfl⟩
      · split at h
        · next hp =>
          cases h
          exact takes_namedPlaceholder hp
        · split at h
          · next ho =>
            cases h
            exact takes_operator ho
          · split at h
            · cases h
              exact ⟨by simp, rfl⟩
            · simp at h

theorem takes_numeric {afterName : Bool} {c : Char} {s : Text} {kind : TokenKind} {cut : Cut}
    (h : numeric afterName c s = .ok (kind, cut)) : cut.Takes (c :: s) := by
  unfold numeric at h
  split at h
  · exact takes_symbol h
  · split at h
    · simp at h
    · next hn =>
      cases h
      exact takes_number hn
    · split at h
      · next hd =>
        cases h
        exact takes_digitName hd
      · exact takes_symbol h

end Lexeme

/-- A lexeme is not empty, and with what follows it makes up the text. -/
theorem takes_lexeme {afterName : Bool} {c : Char} {s : Text} {kind : TokenKind} {cut : Cut}
    (h : lexeme afterName c s = .ok (kind, cut)) : cut.Takes (c :: s) := by
  unfold lexeme at h
  split at h
  · next hc =>
    cases h
    exact Cut.takes_leading hc
  · split at h
    · next hl =>
      cases h
      exact Lexeme.takes_lineComment hl
    · split at h
      · split at h
        · next hb =>
          cases h
          exact Cut.takes_after ['*'] (Lexeme.of_throughClose hb)
        · simp at h
      · split at h
        · split at h
          · next hq =>
            cases h
            exact Lexeme.takes_quoted hq
          · simp at h
        · split at h
          · split at h
            · next hq =>
              cases h
              exact Lexeme.takes_quoted hq
            · simp at h
          · split at h
            · exact Lexeme.takes_numeric h
            · exact Lexeme.takes_symbol h

/-- A lexeme followed by the rest is the text. -/
theorem append_eq_of_lexeme {afterName : Bool} {c : Char} {s text rest : Text}
    {kind : TokenKind} (h : lexeme afterName c s = .ok (kind, text, rest)) :
    text ++ rest = c :: s :=
  (takes_lexeme h).2

end Restate
