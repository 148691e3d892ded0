import Restate.Proofs.Lexing.Numerals

/-!
# Where tokens stop

Words, numbers, variables and operators are as long as they can be, so what stands behind one does
not go on with it (`word_spec`, `digitName_spec`, `variableName_rest`, `namedPlaceholder_rest`,
`operator_spec`; for numbers see `number_spec`). No token begins with a dollar sign, which a name
may hold but not a placeholder (`lexeme_dollar`).
-/

namespace Restate

open Text

namespace Lexeme

variable {s : Text} {cut : Cut}

theorem leading_rest (p : Char → Bool) (s : Text) :
    ∀ c ∈ (Cut.leading p s).2.head?, p c = false := by
  intro c hc
  have hstop := List.head?_dropWhile_not p s
  rw [show (s.dropWhile p).head? = some c from hc] at hstop
  simpa using hstop

theorem nameFollows_eq_false_iff : nameFollows s = false ↔ ∀ c ∈ s.head?, isNameChar c = false := by
  cases s with
  | nil => simp [nameFollows]
  | cons c s => simp [nameFollows]

/-- Name characters behind a first one are taken to their end. -/
theorem leading_name_spec {c : Char} (hc : isNameChar c = true) (s : Text) :
    ((Cut.leading isNameChar s).after [c]).1.all isNameChar = true ∧
      nameFollows ((Cut.leading isNameChar s).after [c]).2 = false := by
  refine ⟨?_, nameFollows_eq_false_iff.2 (leading_rest isNameChar s)⟩
  refine List.all_eq_true.2 fun d hd => ?_
  rcases List.mem_cons.1 hd with rfl | hd
  · exact hc
  · exact List.mem_takeWhile_imp hd

theorem word_spec (h : word? s = some cut) :
    cut.1.all isNameChar = true ∧ nameFollows cut.2 = false := by
  unfold word? at h
  split at h
  · cases h
  · split at h
    · next hstart =>
        cases h
        exact leading_name_spec (Bool.or_eq_true_iff.2 (.inl (Bool.and_eq_true_iff.1 hstart).1)) _
    · cases h

theorem digitName_spec (h : digitName? s = some cut) :
    cut.1.all isNameChar = true ∧ nameFollows cut.2 = false := by
  unfold digitName? at h
  split at h
  · cases h
  · split at h
    · next hdigit =>
        cases h
        exact leading_name_spec (isNameChar_of_isDigitSign hdigit) _
    · cases h

/-- No name goes on behind a variable's bare name. -/
theorem variableName_rest (h : variableName? s = some cut)
    (hbare : ∀ c ∈ cut.1, isVariableChar c = true) : nameFollows cut.2 = false := by
  unfold variableName? at h
  split at h
  · cases h
  · next c s =>
      split at h
      · cases h
        refine nameFollows_eq_false_iff.2 fun d hd => ?_
        have hnot := leading_rest isVariableChar (c :: s) d hd
        exact (Bool.or_eq_false_iff.1 hnot).1
      · split at h
        · next hquote =>
            split at h
            · cases h
              have hvariable := hbare c List.mem_cons_self
              rw [not_isVariableChar hquote] at hvariable
              cases hvariable
            · cases h
        · cases h

/-- A variable is a name behind one or two at signs. -/
theorem atName_spec (h : atName? s = some cut) :
    ∃ signs rest name, (signs = ['@'] ∨ signs = ['@', '@']) ∧
      variableName? rest = some (name, cut.2) ∧ cut.1 = signs ++ name := by
  unfold atName? at h
  split at h
  · obtain ⟨⟨name, rest⟩, hname, rfl⟩ := Option.map_eq_some_iff.1 h
    exact ⟨_, _, name, .inr rfl, hname, rfl⟩
  · obtain ⟨⟨name, rest⟩, hname, rfl⟩ := Option.map_eq_some_iff.1 h
    exact ⟨_, _, name, .inl rfl, hname, rfl⟩
  · cases h

theorem namedPlaceholder_rest (h : namedPlaceholder? s = some cut) :
    ∀ c ∈ cut.2.head?, isWordChar c = false := by
  unfold namedPlaceholder? at h
  split at h
  · split at h
    · cases h
      exact leading_rest isWordChar _
    · cases h
  · cases h

/-- Each operator is listed before its own beginnings. -/
theorem operators_pairwise : operators.Pairwise fun sign longer => ¬ sign <+: longer := by
  decide +kernel

/-- An operator is no longer one with the character behind it. -/
theorem operator_spec (h : operator? s = some cut) :
    cut.1 ∈ operators ∧ ∀ c ∈ cut.2.head?, cut.1 ++ [c] ∉ operators := by
  obtain ⟨sign, hfind, rfl⟩ := Option.map_eq_some_iff.1 h
  refine ⟨List.mem_of_find?_eq_some hfind, fun c hc hmem => ?_⟩
  obtain ⟨hbegins, front, back, hsplit, hfront⟩ := List.find?_eq_some_iff_append.1 hfind
  obtain ⟨rest, rfl⟩ := List.isPrefixOf_iff_prefix.1 hbegins
  have hlonger : sign ++ [c] <+: sign ++ rest := by
    rw [List.prefix_append_right_inj]
    have hhead : rest.head? = some c := by simpa using hc
    obtain ⟨more, rfl⟩ := List.head?_eq_some_iff.1 hhead
    exact ⟨more, rfl⟩
  rw [hsplit] at hmem
  have hpairwise := hsplit ▸ operators_pairwise
  rcases List.mem_append.1 hmem with hmem | hmem
  · have hnot := hfront _ hmem
    rw [List.isPrefixOf_iff_prefix.2 hlonger] at hnot
    cases hnot
  · rcases List.mem_cons.1 hmem with heq | hmem
    · simp at heq
    · have hlater := (List.pairwise_cons.1 (List.pairwise_append.1 hpairwise).2.1).1 _ hmem
      exact hlater (List.prefix_append sign [c])

end Lexeme

theorem lexeme_dollar (afterName : Bool) (s : Text) :
    lexeme afterName '$' s = .error (.strayCharacter '$') :=
  rfl

end Restate
