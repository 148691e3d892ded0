import Restate.Parens

/-!
# Open and balanced parentheses

A parenthesis is open behind a list of tokens if it is opened among them and not closed there. Main
statements: one is open just if a count that never falls below zero says so (`hasOpen_iff`), and
what stands between a parenthesis and the one that closes it is balanced (`closingFrom_one_iff`).
The depth that separates statements does fall below zero, so it parts from the count where a
parenthesis is closed that nothing opened.
-/

namespace Restate

/-- A parenthesis is opened among the tokens and not closed among them. -/
def HasOpen (tokens : List Token) : Prop :=
  ∃ before opening inner, tokens = before ++ opening :: inner ∧ opening.isPunct "(" = true ∧
    closingFrom 1 inner = none

/-- How many parentheses are open behind a token, from how many are before it. One that closes what
nothing opened changes nothing. -/
def openAfter (n : Nat) (t : Token) : Nat :=
  if t.isPunct "(" then n + 1 else if t.isPunct ")" then n - 1 else n

/-- How many parentheses are open behind the tokens. -/
def unclosed (tokens : List Token) : Nat :=
  tokens.foldl openAfter 0

/-- Each parenthesis among the tokens is opened and closed there. -/
inductive Balanced : List Token → Prop where
  | nil : Balanced []
  | token {t : Token} {rest : List Token} : t.isPunct "(" = false → t.isPunct ")" = false →
      Balanced rest → Balanced (t :: rest)
  | group {opening closing : Token} {inner rest : List Token} : opening.isPunct "(" = true →
      closing.isPunct ")" = true → Balanced inner → Balanced rest →
      Balanced (opening :: inner ++ closing :: rest)

theorem not_isPunct_of_isPunct {t : Token} {mark other : Text} (h : t.isPunct mark = true)
    (hne : mark ≠ other) : t.isPunct other = false := by
  simp only [Token.isPunct, Bool.and_eq_true, beq_iff_eq] at h
  simp [Token.isPunct, h.2, hne]

theorem not_isTrivia_of_isPunct {t : Token} {mark : Text} (h : t.isPunct mark = true) :
    t.isTrivia = false := by
  simp only [Token.isPunct, Bool.and_eq_true, beq_iff_eq] at h
  simp [Token.isTrivia, h.1, TokenKind.isTrivia]

theorem not_isBare_of_isPunct {t : Token} {mark : Text} (h : t.isPunct mark = true) :
    t.kind.isBare = false := by
  simp only [Token.isPunct, Bool.and_eq_true, beq_iff_eq] at h
  simp [h.1, TokenKind.isBare]

/-- There is a part before the first separator. -/
theorem splitAtDepth_ne_nil (separator : Text) (depth : Int) (tokens : List Token) :
    splitAtDepth separator depth tokens ≠ [] := by
  have hcons : ∀ (t : Token) (parts : List (List Token)), consFirst t parts ≠ [] := by
    intro t parts
    cases parts with
    | nil => simp [consFirst]
    | cons part parts => simp [consFirst]
  cases tokens with
  | nil => simp [splitAtDepth]
  | cons t tokens =>
      rw [splitAtDepth]
      split
      · exact hcons t _
      · split
        · exact hcons t _
        · split
          · simp
          · exact hcons t _

/-- Tokens put at the front of the first of some parts. -/
theorem foldr_consFirst (tokens part : List Token) (parts : List (List Token)) :
    tokens.foldr consFirst (part :: parts) = (tokens ++ part) :: parts := by
  induction tokens with
  | nil => rfl
  | cons t tokens ih => rw [List.foldr_cons, ih, consFirst, List.cons_append]

section Step

variable {t : Token} {tokens : List Token} {depth : Int} {n : Nat}

theorem closingFrom_opening (h : t.isPunct "(" = true) :
    closingFrom depth (t :: tokens) = (closingFrom (depth + 1) tokens).map (· + 1) :=
  if_pos h

theorem closingFrom_closing (h : t.isPunct ")" = true) :
    closingFrom depth (t :: tokens) =
      if depth = 1 then some 0 else (closingFrom (depth - 1) tokens).map (· + 1) := by
  rw [closingFrom, if_neg (ne_true_of_eq_false (not_isPunct_of_isPunct h (by decide))), if_pos h]

theorem closingFrom_other (hopen : t.isPunct "(" = false) (hclose : t.isPunct ")" = false) :
    closingFrom depth (t :: tokens) = (closingFrom depth tokens).map (· + 1) := by
  rw [closingFrom, if_neg (ne_true_of_eq_false hopen), if_neg (ne_true_of_eq_false hclose)]

theorem openAfter_opening (h : t.isPunct "(" = true) : openAfter n t = n + 1 :=
  if_pos h

theorem openAfter_closing (h : t.isPunct ")" = true) : openAfter n t = n - 1 := by
  rw [openAfter, if_neg (ne_true_of_eq_false (not_isPunct_of_isPunct h (by decide))), if_pos h]

theorem openAfter_other (hopen : t.isPunct "(" = false) (hclose : t.isPunct ")" = false) :
    openAfter n t = n := by
  rw [openAfter, if_neg (ne_true_of_eq_false hopen), if_neg (ne_true_of_eq_false hclose)]

/-- A token opens a parenthesis, or closes one, or does neither. -/
theorem paren_cases (t : Token) : t.isPunct "(" = true ∨ t.isPunct ")" = true ∨
    t.isPunct "(" = false ∧ t.isPunct ")" = false := by
  cases t.isPunct "(" with
  | true => exact .inl rfl
  | false =>
      cases t.isPunct ")" with
      | true => exact .inr (.inl rfl)
      | false => exact .inr (.inr ⟨rfl, rfl⟩)

/-- Where a parenthesis is closed, what stands behind does not count. -/
theorem closingFrom_append_of_some (h : closingFrom depth tokens = some n) (more : List Token) :
    closingFrom depth (tokens ++ more) = some n := by
  induction tokens generalizing depth n with
  | nil => simp [closingFrom] at h
  | cons t tokens ih =>
      rw [List.cons_append]
      rcases paren_cases t with hopen | hclose | ⟨hopen, hclose⟩
      · rw [closingFrom_opening hopen] at h ⊢
        obtain ⟨m, hm, rfl⟩ := Option.map_eq_some_iff.1 h
        rw [ih hm, Option.map_some]
      · rw [closingFrom_closing hclose] at h ⊢
        split at h
        · next hone => rwa [if_pos hone]
        · next hone =>
            obtain ⟨m, hm, rfl⟩ := Option.map_eq_some_iff.1 h
            rw [if_neg hone, ih hm, Option.map_some]
      · rw [closingFrom_other hopen hclose] at h ⊢
        obtain ⟨m, hm, rfl⟩ := Option.map_eq_some_iff.1 h
        rw [ih hm, Option.map_some]

end Step

section Open

variable {tokens : List Token} {k m n : Nat}

theorem HasOpen.cons (h : HasOpen tokens) (t : Token) : HasOpen (t :: tokens) := by
  obtain ⟨before, opening, inner, rfl, hopen, hclose⟩ := h
  exact ⟨t :: before, opening, inner, rfl, hopen, hclose⟩

/-- Of `k` open parentheses that are not all closed, one stays open, whatever was open before. -/
theorem lt_foldl_openAfter (hk : 0 < k) (h : closingFrom k tokens = none) :
    m < tokens.foldl openAfter (m + k) := by
  induction tokens generalizing k with
  | nil => simpa using hk
  | cons t tokens ih =>
      rw [List.foldl_cons]
      rcases paren_cases t with hopen | hclose | ⟨hopen, hclose⟩
      · rw [closingFrom_opening hopen, Option.map_eq_none_iff] at h
        rw [openAfter_opening hopen, Nat.add_assoc]
        exact ih (by omega) (by exact_mod_cast h)
      · rw [closingFrom_closing hclose] at h
        rw [openAfter_closing hclose, Nat.add_sub_assoc hk]
        by_cases hone : k = 1
        · simp [hone] at h
        · rw [if_neg (by exact_mod_cast hone), Option.map_eq_none_iff] at h
          refine ih (by omega) ?_
          rwa [Int.ofNat_sub hk]
      · rw [closingFrom_other hopen hclose, Option.map_eq_none_iff] at h
        rw [openAfter_other hopen hclose]
        exact ih hk h

/-- What is open behind the tokens was opened among them, or was open before and not closed. -/
theorem hasOpen_or_of_foldl (h : 0 < tokens.foldl openAfter n) :
    HasOpen tokens ∨ 0 < n ∧ closingFrom n tokens = none := by
  induction tokens generalizing n with
  | nil => exact .inr ⟨h, rfl⟩
  | cons t tokens ih =>
      rw [List.foldl_cons] at h
      rcases ih h with hopen | ⟨hpos, hnone⟩
      · exact .inl (hopen.cons t)
      · rcases paren_cases t with hopen | hclose | ⟨hopen, hclose⟩
        · rw [openAfter_opening hopen] at hnone
          rcases Nat.eq_zero_or_pos n with rfl | hn
          · exact .inl ⟨[], t, tokens, rfl, hopen, by exact_mod_cast hnone⟩
          · rw [closingFrom_opening hopen, Option.map_eq_none_iff]
            exact .inr ⟨hn, by exact_mod_cast hnone⟩
        · rw [openAfter_closing hclose] at hpos hnone
          rw [closingFrom_closing hclose, if_neg (by omega), Option.map_eq_none_iff]
          refine .inr ⟨by omega, ?_⟩
          rwa [Int.ofNat_sub (by omega)] at hnone
        · rw [openAfter_other hopen hclose] at hpos hnone
          rw [closingFrom_other hopen hclose, Option.map_eq_none_iff]
          exact .inr ⟨hpos, hnone⟩

/-- A parenthesis is open just if the count of open ones is not zero. -/
theorem hasOpen_iff : HasOpen tokens ↔ 0 < unclosed tokens := by
  constructor
  · rintro ⟨before, opening, inner, rfl, hopen, hclose⟩
    rw [unclosed, List.foldl_append, List.foldl_cons, openAfter_opening hopen]
    have hlt := lt_foldl_openAfter (m := unclosed before) Nat.one_pos hclose
    exact Nat.zero_lt_of_lt hlt
  · intro h
    rcases hasOpen_or_of_foldl h with hopen | ⟨hpos, -⟩
    · exact hopen
    · exact absurd hpos (Nat.lt_irrefl 0)

instance : Decidable (HasOpen tokens) :=
  decidable_of_iff _ hasOpen_iff.symm

end Open

namespace Balanced

theorem trivia_append {trivia tokens : List Token} (htrivia : ∀ t ∈ trivia, t.isTrivia = true)
    (h : Balanced tokens) : Balanced (trivia ++ tokens) := by
  have hpunct : ∀ {t : Token} {mark : Text}, t.isTrivia = true → t.isPunct mark = false := by
    intro t mark ht
    cases hmark : t.isPunct mark with
    | false => rfl
    | true => simp [not_isTrivia_of_isPunct hmark] at ht
  induction trivia with
  | nil => exact h
  | cons t trivia ih =>
      obtain ⟨ht, hrest⟩ := List.forall_mem_cons.1 htrivia
      exact .token (hpunct ht) (hpunct ht) (ih hrest)

variable {inner more : List Token} {k n : Nat}

theorem append (h : Balanced inner) (hmore : Balanced more) : Balanced (inner ++ more) := by
  induction h with
  | nil => exact hmore
  | token hopen hclose _ ih => exact .token hopen hclose ih
  | group hopen hclose hinner _ _ ih =>
      rw [List.append_assoc]
      exact .group hopen hclose hinner ih

/-- A search for the parenthesis that closes passes over what is balanced. -/
theorem closingFrom_append (h : Balanced inner) (hk : 0 < k) (tokens : List Token) :
    closingFrom k (inner ++ tokens) = (closingFrom k tokens).map (· + inner.length) := by
  induction h generalizing k tokens with
  | nil => simp
  | token hopen hclose _ ih =>
      rw [List.cons_append, closingFrom_other hopen hclose, ih hk, Option.map_map]
      rfl
  | @group opening closing inner rest hopen hclose _ _ ihinner ihrest =>
      have hdeeper := ihinner (Nat.succ_pos k) (closing :: (rest ++ tokens))
      rw [closingFrom_closing hclose, if_neg (by omega),
        show ((k + 1 : Nat) : Int) - 1 = k by omega, ihrest hk] at hdeeper
      rw [List.append_assoc, List.cons_append, List.cons_append, closingFrom_opening hopen,
        show (k : Int) + 1 = (k + 1 : Nat) by omega, hdeeper]
      simp only [Option.map_map]
      congr 1
      funext n
      simp only [Function.comp_apply, List.length_cons, List.length_append]
      omega

/-- The parenthesis behind what is balanced is the one that closes. -/
theorem closingFrom_one (h : Balanced inner) {closing : Token} (hclose : closing.isPunct ")" = true)
    (rest : List Token) : closingFrom 1 (inner ++ closing :: rest) = some inner.length := by
  have happend := h.closingFrom_append Nat.one_pos (closing :: rest)
  rw [closingFrom_closing hclose] at happend
  simpa using happend

theorem foldl_openAfter (h : Balanced inner) : inner.foldl openAfter n = n := by
  induction h generalizing n with
  | nil => rfl
  | token hopen hclose _ ih => rw [List.foldl_cons, openAfter_other hopen hclose, ih]
  | group hopen hclose _ _ ihinner ihrest =>
      rw [List.foldl_append, List.foldl_cons, List.foldl_cons, openAfter_opening hopen, ihinner,
        openAfter_closing hclose, Nat.add_sub_cancel, ihrest]

/-- Inside a parenthesis what is balanced separates nothing. -/
theorem splitAtDepth_append (h : Balanced inner) (separator : Text) {depth : Int}
    (hdepth : 0 < depth) (more : List Token) :
    splitAtDepth separator depth (inner ++ more) =
      inner.foldr consFirst (splitAtDepth separator depth more) := by
  induction h generalizing depth more with
  | nil => rfl
  | @token t rest hopen hclose _ ih =>
      have hnone : ¬ (depth = 0 ∧ t.isPunct separator = true) := fun h => by omega
      rw [List.cons_append, splitAtDepth, if_neg (ne_true_of_eq_false hopen),
        if_neg (ne_true_of_eq_false hclose), if_neg hnone, ih hdepth, List.foldr_cons]
  | @group opening closing inner rest hopen hclose _ _ ihinner ihrest =>
      have hother : closing.isPunct "(" = false := not_isPunct_of_isPunct hclose (by decide)
      have hdeeper : 0 < depth + 1 := by omega
      rw [List.append_assoc, List.cons_append, List.cons_append, splitAtDepth, if_pos hopen,
        ihinner hdeeper, splitAtDepth, if_neg (ne_true_of_eq_false hother), if_pos hclose,
        Int.add_sub_cancel, ihrest hdepth, List.foldr_append, List.foldr_cons, List.foldr_cons]

/-- No parenthesis is open behind what is balanced. -/
theorem not_hasOpen (h : Balanced inner) : ¬ HasOpen inner := by
  rw [hasOpen_iff, unclosed, h.foldl_openAfter]
  exact Nat.lt_irrefl 0

end Balanced

/-- Each parenthesis among the tokens is opened and closed there, and no separator stands outside
all of them. -/
inductive Undivided (separator : Text) : List Token → Prop where
  | nil : Undivided separator []
  | token {t : Token} {rest : List Token} : t.isPunct "(" = false → t.isPunct ")" = false →
      t.isPunct separator = false → Undivided separator rest → Undivided separator (t :: rest)
  | group {opening closing : Token} {inner rest : List Token} : opening.isPunct "(" = true →
      closing.isPunct ")" = true → Balanced inner → Undivided separator rest →
      Undivided separator (opening :: inner ++ closing :: rest)

namespace Undivided

variable {separator : Text} {tokens more : List Token}

theorem append (h : Undivided separator tokens) (hmore : Undivided separator more) :
    Undivided separator (tokens ++ more) := by
  induction h with
  | nil => exact hmore
  | token hopen hclose hseparator _ ih => exact .token hopen hclose hseparator ih
  | group hopen hclose hinner _ ih =>
      rw [List.append_assoc]
      exact .group hopen hclose hinner ih

theorem balanced (h : Undivided separator tokens) : Balanced tokens := by
  induction h with
  | nil => exact .nil
  | token hopen hclose _ _ ih => exact .token hopen hclose ih
  | group hopen hclose hinner _ ih => exact .group hopen hclose hinner ih

/-- Nothing is separated by the tokens, whatever follows them. -/
theorem splitTopLevel_append (h : Undivided separator tokens) (more : List Token) :
    splitTopLevel separator (tokens ++ more) =
      tokens.foldr consFirst (splitTopLevel separator more) := by
  unfold splitTopLevel
  induction h with
  | nil => rfl
  | @token t rest hopen hclose hseparator _ ih =>
      have hnone : ¬ ((0 : Int) = 0 ∧ t.isPunct separator = true) := by simp [hseparator]
      rw [List.cons_append, splitAtDepth, if_neg (ne_true_of_eq_false hopen),
        if_neg (ne_true_of_eq_false hclose), if_neg hnone, ih, List.foldr_cons]
  | @group opening closing inner rest hopen hclose hinner _ ih =>
      have hother : closing.isPunct "(" = false := not_isPunct_of_isPunct hclose (by decide)
      rw [List.append_assoc, List.cons_append, List.cons_append, splitAtDepth, if_pos hopen,
        hinner.splitAtDepth_append _ (by decide), splitAtDepth,
        if_neg (ne_true_of_eq_false hother), if_pos hclose, Int.add_sub_cancel, ih,
        List.foldr_append, List.foldr_cons, List.foldr_cons]

/-- Nothing is separated, so all is one part. -/
theorem splitTopLevel_eq (h : Undivided separator tokens) :
    splitTopLevel separator tokens = [tokens] := by
  have hsplit := h.splitTopLevel_append []
  rw [List.append_nil] at hsplit
  rw [hsplit]
  exact (foldr_consFirst tokens [] []).trans (by rw [List.append_nil])

/-- What stands before a separator is the first part. -/
theorem splitTopLevel_cons {t : Token} (ht : t.isPunct separator = true)
    (hopen : t.isPunct "(" = false) (hclose : t.isPunct ")" = false)
    (h : Undivided separator tokens) :
    splitTopLevel separator (tokens ++ t :: more) = tokens :: splitTopLevel separator more := by
  have hsplit : splitTopLevel separator (t :: more) = [] :: splitTopLevel separator more := by
    unfold splitTopLevel
    rw [splitAtDepth, if_neg (ne_true_of_eq_false hopen), if_neg (ne_true_of_eq_false hclose),
      if_pos ⟨rfl, ht⟩]
  rw [h.splitTopLevel_append, hsplit, foldr_consFirst, List.append_nil]

end Undivided

section Closing

variable {tokens : List Token} {k n : Nat}

/-- Up to where the first of `k` open parentheses is closed the tokens are balanced. -/
theorem exists_balanced_of_closingFrom (hk : 0 < k) (h : closingFrom k tokens = some n) :
    ∃ inner closing rest, tokens = inner ++ closing :: rest ∧ Balanced inner ∧
      closing.isPunct ")" = true ∧
      if k = 1 then n = inner.length
      else ∃ m, closingFrom (k - 1 : Nat) rest = some m ∧ n = inner.length + 1 + m := by
  induction hlength : tokens.length using Nat.strongRecOn generalizing tokens k n with
  | ind length ih =>
      subst hlength
      cases tokens with
      | nil => simp [closingFrom] at h
      | cons t tokens =>
          rcases paren_cases t with hopen | hclose | ⟨hopen, hclose⟩
          · -- the parenthesis is closed first, and then the first of those open before
            rw [closingFrom_opening hopen] at h
            obtain ⟨n, hn, rfl⟩ := Option.map_eq_some_iff.1 h
            obtain ⟨inner, closing, rest, rfl, hinner, hclosing, hrest⟩ :=
              ih tokens.length (by simp) (Nat.succ_pos k) (by exact_mod_cast hn) rfl
            rw [if_neg (by omega)] at hrest
            obtain ⟨m, hm, rfl⟩ := hrest
            obtain ⟨inner', closing', rest', rfl, hinner', hclosing', hrest'⟩ :=
              ih rest.length (by simp; omega) hk hm rfl
            refine ⟨t :: inner ++ closing :: inner', closing', rest', by simp,
              .group hopen hclosing hinner hinner', hclosing', ?_⟩
            split at hrest'
            · next hone =>
                rw [if_pos hone]
                simp only [List.length_append, List.length_cons]
                omega
            · next hone =>
                obtain ⟨m', hm', rfl⟩ := hrest'
                rw [if_neg hone]
                refine ⟨m', hm', ?_⟩
                simp only [List.length_append, List.length_cons]
                omega
          · rw [closingFrom_closing hclose] at h
            refine ⟨[], t, tokens, rfl, .nil, hclose, ?_⟩
            by_cases hone : k = 1
            · simpa [hone] using h.symm
            · rw [if_neg (by omega)] at h
              obtain ⟨m, hm, rfl⟩ := Option.map_eq_some_iff.1 h
              rw [if_neg hone]
              refine ⟨m, ?_, by simp; omega⟩
              rwa [Int.ofNat_sub hk]
          · rw [closingFrom_other hopen hclose] at h
            obtain ⟨n, hn, rfl⟩ := Option.map_eq_some_iff.1 h
            obtain ⟨inner, closing, rest, rfl, hinner, hclosing, hrest⟩ :=
              ih tokens.length (by simp) hk hn rfl
            refine ⟨t :: inner, closing, rest, rfl, .token hopen hclose hinner, hclosing, ?_⟩
            split at hrest
            · next hone => simpa [hone] using hrest
            · next hone =>
                obtain ⟨m, hm, rfl⟩ := hrest
                rw [if_neg hone]
                refine ⟨m, hm, ?_⟩
                simp only [List.length_cons]
                omega

/-- The parenthesis that closes stands behind what is balanced. -/
theorem closingFrom_one_iff : closingFrom 1 tokens = some n ↔
    ∃ inner closing rest, tokens = inner ++ closing :: rest ∧ Balanced inner ∧
      closing.isPunct ")" = true ∧ n = inner.length := by
  constructor
  · intro h
    obtain ⟨inner, closing, rest, htokens, hinner, hclosing, hn⟩ :=
      exists_balanced_of_closingFrom Nat.one_pos (by exact_mod_cast h)
    exact ⟨inner, closing, rest, htokens, hinner, hclosing, by simpa using hn⟩
  · rintro ⟨inner, closing, rest, rfl, hinner, hclosing, rfl⟩
    exact hinner.closingFrom_one hclosing rest

end Closing

end Restate
