import Mathlib.Order.Bounds.Basic
import Restate.Lexing
import Restate.Proofs.Parens
import Restate.Proofs.Restatement

/-!
# Depth

The depth behind some tokens is how many more parentheses they open than they close. It changes by
one at a time, so what is opened inside a parenthesis is closed inside it. Main statement: the
parenthesis that closes another is the first one behind it with which the depth is even again
(`matchingParen_closesFirst`).
-/

namespace Restate

/-- How many parentheses stand open behind the tokens; fewer than none if more were closed. -/
def openParens (tokens : List Token) : Int :=
  tokens.countP (·.isPunct "(") - tokens.countP (·.isPunct ")")

/-- The depth behind a token, from the depth before it. -/
def depthAfter (depth : Int) (t : Token) : Int :=
  if t.isPunct "(" then depth + 1 else if t.isPunct ")" then depth - 1 else depth

/-- From one place through a later one as many parentheses are closed as opened. -/
def EvenThrough (tokens : List Token) (first last : Nat) : Prop :=
  first < last ∧ last < tokens.length ∧ openParens (tokens.extract first (last + 1)) = 0

section Depth

variable {i j k : Nat}

theorem openParens_append (tokens more : List Token) :
    openParens (tokens ++ more) = openParens tokens + openParens more := by
  unfold openParens
  rw [List.countP_append, List.countP_append]
  omega

theorem openParens_concat (before : List Token) (t : Token) :
    openParens (before ++ [t]) = depthAfter (openParens before) t := by
  unfold openParens depthAfter
  rw [List.countP_append, List.countP_append, List.countP_singleton, List.countP_singleton]
  split
  · next hopen =>
      have hclose : t.isPunct ")" = false := not_isPunct_of_isPunct hopen (by decide)
      rw [hclose, if_neg (by simp)]
      omega
  · split
    · omega
    · omega

theorem openParens_cons (t : Token) (ts : List Token) :
    openParens (t :: ts) = depthAfter 0 t + openParens ts := by
  rw [← List.singleton_append, openParens_append, ← List.nil_append [t], openParens_concat]
  rfl

theorem depthAfter_add (depth : Int) (t : Token) (other : Int) :
    depth + (depthAfter 0 t + other) = depthAfter depth t + other := by
  unfold depthAfter
  split
  · omega
  · split
    · omega
    · omega

/-- A token closes one parenthesis at most. -/
theorem le_depthAfter (depth : Int) (t : Token) : depth - 1 ≤ depthAfter depth t := by
  unfold depthAfter
  split
  · omega
  · split
    · omega
    · omega

/-- What is read in two stretches opens what both of them do. -/
theorem openParens_extract_add (tokens : List Token) (hij : i ≤ j) (hjk : j ≤ k) :
    openParens (tokens.extract i j) + openParens (tokens.extract j k) =
      openParens (tokens.extract i k) := by
  have hsplit : tokens.extract i j ++ tokens.extract j k = tokens.extract i k := by
    have hdrop : tokens.drop j = (tokens.drop i).drop (j - i) := by
      rw [List.drop_drop, Nat.add_sub_cancel' hij]
    rw [List.extract, List.extract, List.extract, hdrop, ← List.take_add]
    congr 1
    omega
  rw [← hsplit, openParens_append]

end Depth

section Closing

variable {tokens : List Token} {t : Token} {depth : Int} {n : Nat}

/-- Inside a parenthesis a search ends with the token behind which the depth is zero. -/
theorem closingFrom_cons (hdepth : 0 < depth) :
    closingFrom depth (t :: tokens) =
      if depthAfter depth t = 0 then some 0
      else (closingFrom (depthAfter depth t) tokens).map (· + 1) := by
  unfold depthAfter
  rcases paren_cases t with hopen | hclose | ⟨hopen, hclose⟩
  · rw [closingFrom_opening hopen, if_pos hopen, if_neg (by omega)]
  · have hopen : t.isPunct "(" = false := not_isPunct_of_isPunct hclose (by decide)
    rw [closingFrom_closing hclose, if_neg (ne_true_of_eq_false hopen), if_pos hclose]
    simp only [Int.sub_eq_zero]
  · rw [closingFrom_other hopen hclose, if_neg (ne_true_of_eq_false hopen),
      if_neg (ne_true_of_eq_false hclose), if_neg (by omega)]

theorem openParens_take_succ (depth : Int) (t : Token) (tokens : List Token) (m : Nat) :
    depth + openParens ((t :: tokens).take (m + 1)) =
      depthAfter depth t + openParens (tokens.take m) := by
  rw [List.take_succ_cons, openParens_cons, depthAfter_add]

theorem forall_openParens_take_iff (hdepth : 0 < depth) :
    (∀ m ≤ n, 0 < depth + openParens ((t :: tokens).take m)) ↔
      ∀ m < n, 0 < depthAfter depth t + openParens (tokens.take m) := by
  constructor
  · intro h m hm
    rw [← openParens_take_succ]
    exact h (m + 1) hm
  · intro h m hm
    cases m with
    | zero => exact lt_of_lt_of_eq hdepth (Int.add_zero depth).symm
    | succ m =>
        rw [openParens_take_succ]
        exact h m hm

/-- A search inside a parenthesis goes on while the depth is positive, and ends where it is zero. -/
theorem closingFrom_eq_some_iff (hdepth : 0 < depth) :
    closingFrom depth tokens = some n ↔
      n < tokens.length ∧ depth + openParens (tokens.take (n + 1)) = 0 ∧
        ∀ m ≤ n, 0 < depth + openParens (tokens.take m) := by
  induction tokens generalizing depth n with
  | nil => simp [closingFrom]
  | cons t tokens ih =>
      have hle := le_depthAfter depth t
      rw [closingFrom_cons hdepth, openParens_take_succ, forall_openParens_take_iff hdepth]
      split
      · next hzero =>
          rw [hzero]
          cases n with
          | zero => simp [openParens]
          | succ n =>
              refine iff_of_false (by simp) ?_
              rintro ⟨-, -, hpositive⟩
              exact absurd (hpositive 0 (Nat.succ_pos n)) (by simp [openParens])
      · next hne =>
          rw [Option.map_eq_some_iff]
          cases n with
          | zero => simp [openParens, hne]
          | succ n =>
              have hnext := ih (n := n) (show 0 < depthAfter depth t by omega)
              simp only [Nat.add_right_cancel_iff, exists_eq_right, hnext, Nat.lt_succ_iff,
                List.length_cons, Nat.succ_le_iff]

/-- A search inside a parenthesis fails just if the depth stays positive. -/
theorem closingFrom_eq_none_iff (hdepth : 0 < depth) :
    closingFrom depth tokens = none ↔
      ∀ m ≤ tokens.length, 0 < depth + openParens (tokens.take m) := by
  induction tokens generalizing depth with
  | nil => simpa [closingFrom, openParens] using hdepth
  | cons t tokens ih =>
      have hle := le_depthAfter depth t
      rw [closingFrom_cons hdepth, forall_openParens_take_iff hdepth]
      split
      · next hzero =>
          refine iff_of_false (by simp) fun hpositive => ?_
          rw [hzero] at hpositive
          exact absurd (hpositive 0 (Nat.succ_pos _)) (by simp [openParens])
      · next hne =>
          rw [Option.map_eq_none_iff, ih (by omega)]
          simp only [List.length_cons, Nat.lt_succ_iff]

end Closing

section Matching

variable {tokens : List Token} {t : Token} {i first : Nat}

theorem eq_unbalanced_of_matchingParen {e : Error} (h : matchingParen tokens first = .error e) :
    e = .refuse .unbalancedParentheses := by
  unfold matchingParen at h
  split at h
  · cases h
  · exact (Except.error.inj h).symm

section

variable (hfirst : tokens[first]? = some t) (hopen : t.isPunct "(" = true)
include hfirst hopen

theorem matchingParen_eq : matchingParen tokens first =
    match closingFrom 1 (tokens.drop (first + 1)) with
    | some m => .ok (first + (m + 1))
    | none => .error (.refuse .unbalancedParentheses) := by
  obtain ⟨hlt, rfl⟩ := List.getElem?_eq_some_iff.1 hfirst
  rw [matchingParen, List.drop_eq_getElem_cons hlt, closingFrom_opening hopen, Int.zero_add]
  cases closingFrom 1 (tokens.drop (first + 1)) with
  | none => rfl
  | some m => rfl

/-- Behind an opening parenthesis the depth is one. -/
theorem openParens_extract_opening (m : Nat) :
    openParens (tokens.extract first (first + (m + 1))) =
      1 + openParens ((tokens.drop (first + 1)).take m) := by
  obtain ⟨hlt, rfl⟩ := List.getElem?_eq_some_iff.1 hfirst
  rw [List.extract, List.drop_eq_getElem_cons hlt, Nat.add_sub_cancel_left, List.take_succ_cons,
    openParens_cons, depthAfter, if_pos hopen]
  rfl

/-- A parenthesis is closed where the depth from it on is zero for the first time. -/
theorem matchingParen_eq_ok_iff : matchingParen tokens first = .ok i ↔
    EvenThrough tokens first i ∧
      ∀ j, first < j → j ≤ i → 0 < openParens (tokens.extract first j) := by
  have hlength : (tokens.drop (first + 1)).length = tokens.length - (first + 1) := List.length_drop
  have hextract := openParens_extract_opening hfirst hopen
  constructor
  · intro h
    rw [matchingParen_eq hfirst hopen] at h
    split at h
    · next m hm =>
        obtain rfl := Except.ok.inj h
        obtain ⟨hlt, hzero, hpositive⟩ := (closingFrom_eq_some_iff Int.one_pos).1 hm
        refine ⟨⟨by omega, by omega, ?_⟩, ?_⟩
        · rw [Nat.add_assoc, hextract]
          exact hzero
        · intro j hj hle
          obtain ⟨k, rfl⟩ := Nat.exists_eq_add_of_lt hj
          rw [Nat.add_assoc, hextract]
          exact hpositive k (by omega)
    · cases h
  · rintro ⟨⟨hlt, hlast, hzero⟩, hpositive⟩
    obtain ⟨m, rfl⟩ := Nat.exists_eq_add_of_lt hlt
    have hm : closingFrom 1 (tokens.drop (first + 1)) = some m := by
      refine (closingFrom_eq_some_iff Int.one_pos).2 ⟨by omega, ?_, fun k hk => ?_⟩
      · rw [← hextract]
        exact hzero
      · rw [← hextract]
        exact hpositive _ (by omega) (by omega)
    rw [matchingParen_eq hfirst hopen, hm]
    rfl

/-- A parenthesis is not closed just if the depth from it on stays positive. -/
theorem matchingParen_eq_error_iff :
    matchingParen tokens first = .error (.refuse .unbalancedParentheses) ↔
      ∀ j, first < j → j ≤ tokens.length → 0 < openParens (tokens.extract first j) := by
  have hlength : (tokens.drop (first + 1)).length = tokens.length - (first + 1) := List.length_drop
  have hextract := openParens_extract_opening hfirst hopen
  have hlt := (List.getElem?_eq_some_iff.1 hfirst).1
  have hnone : matchingParen tokens first = .error (.refuse .unbalancedParentheses) ↔
      closingFrom 1 (tokens.drop (first + 1)) = none := by
    rw [matchingParen_eq hfirst hopen]
    cases closingFrom 1 (tokens.drop (first + 1)) with
    | none => simp
    | some m => simp
  rw [hnone, closingFrom_eq_none_iff Int.one_pos]
  constructor
  · intro h j hj hle
    obtain ⟨k, rfl⟩ := Nat.exists_eq_add_of_lt hj
    rw [Nat.add_assoc, hextract]
    exact h k (by omega)
  · intro h m hm
    rw [← hextract]
    exact h _ (by omega) (by omega)

/-- A parenthesis is closed at the first place through which the depth is even. -/
theorem matchingParen_eq_ok_iff_isLeast :
    matchingParen tokens first = .ok i ↔ IsLeast {j | EvenThrough tokens first j} i := by
  have hleast : ∀ j, matchingParen tokens first = .ok j →
      IsLeast {j | EvenThrough tokens first j} j := by
    intro j hj
    obtain ⟨heven, hpositive⟩ := (matchingParen_eq_ok_iff hfirst hopen).1 hj
    refine ⟨heven, ?_⟩
    rintro k ⟨hk, -, hzero⟩
    by_contra hlt
    have hinside := hpositive (k + 1) (by omega) (by omega)
    omega
  refine ⟨hleast i, fun h => ?_⟩
  cases hmatch : matchingParen tokens first with
  | ok j => rw [(hleast j hmatch).unique h]
  | error e =>
      obtain rfl := eq_unbalanced_of_matchingParen hmatch
      obtain ⟨hlt, hlast, hzero⟩ := h.1
      have hinside :=
        (matchingParen_eq_error_iff hfirst hopen).1 hmatch (i + 1) (by omega) (by omega)
      omega

theorem matchingParen_eq_error_iff_forall :
    matchingParen tokens first = .error (.refuse .unbalancedParentheses) ↔
      ∀ j, ¬ EvenThrough tokens first j := by
  constructor
  · rintro h j ⟨hlt, hlast, hzero⟩
    have hinside := (matchingParen_eq_error_iff hfirst hopen).1 h (j + 1) (by omega) (by omega)
    omega
  · intro h
    cases hmatch : matchingParen tokens first with
    | ok j => exact (h j ((matchingParen_eq_ok_iff hfirst hopen).1 hmatch).1).elim
    | error e => rw [eq_unbalanced_of_matchingParen hmatch]

/-- What is opened inside a parenthesis is closed inside it. -/
theorem exists_matchingParen_inside {p : Nat} {u : Token} (h : matchingParen tokens first = .ok i)
    (hbehind : first < p) (hahead : p < i) (hp : tokens[p]? = some u) (hu : u.isPunct "(" = true) :
    ∃ j, p < j ∧ j < i ∧ matchingParen tokens p = .ok j := by
  obtain ⟨⟨-, hlast, hzero⟩, hpositive⟩ := (matchingParen_eq_ok_iff hfirst hopen).1 h
  -- the depth before the inner one is positive, so from there on it falls below zero
  have hbefore := hpositive p hbehind (by omega)
  have hsplit := openParens_extract_add tokens hbehind.le (show p ≤ i + 1 by omega)
  cases hmatch : matchingParen tokens p with
  | error e =>
      obtain rfl := eq_unbalanced_of_matchingParen hmatch
      have hinside := (matchingParen_eq_error_iff hp hu).1 hmatch (i + 1) (by omega) (by omega)
      omega
  | ok j =>
      obtain ⟨⟨hpj, -, hclosed⟩, hinner⟩ := (matchingParen_eq_ok_iff hp hu).1 hmatch
      refine ⟨j, hpj, ?_, rfl⟩
      rcases Nat.lt_trichotomy j i with hlt | rfl | hgt
      · exact hlt
      · omega
      · have hinside := hinner (i + 1) (by omega) (by omega)
        omega

end

/-- A parenthesis is closed at the first place through which as many are closed as opened, with
more opened than closed up to any place before; there is an error just if there is no such place;
and each parenthesis that is opened on the way is closed on the way. -/
theorem matchingParen_closesFirst (hfirst : tokens[first]? = some t)
    (hopen : t.isPunct "(" = true) :
    (∀ i, matchingParen tokens first = .ok i ↔ IsLeast {j | EvenThrough tokens first j} i) ∧
    (∀ i, matchingParen tokens first = .ok i ↔
      EvenThrough tokens first i ∧
        ∀ j, first < j → j ≤ i → 0 < openParens (tokens.extract first j)) ∧
    (matchingParen tokens first = .error (.refuse .unbalancedParentheses) ↔
      ∀ j, ¬ EvenThrough tokens first j) ∧
    ∀ i, matchingParen tokens first = .ok i → ∀ p u, first < p → p < i → tokens[p]? = some u →
      u.isPunct "(" = true → ∃ j, p < j ∧ j < i ∧ matchingParen tokens p = .ok j := by
  refine ⟨fun i => matchingParen_eq_ok_iff_isLeast hfirst hopen, fun i =>
    matchingParen_eq_ok_iff hfirst hopen, matchingParen_eq_error_iff_forall hfirst hopen, ?_⟩
  intro i h p u hbehind hahead hp hu
  exact exists_matchingParen_inside hfirst hopen h hbehind hahead hp hu

/-- Two parentheses inside one, and one behind it that is never closed. -/
theorem matchingParen_closesFirst_nested :
    ∃ tokens t inner last, tokenize "f((a), (b)) (c" = .ok tokens ∧ tokens[1]? = some t ∧
      tokens[7]? = some inner ∧ tokens[12]? = some last ∧ t.isPunct "(" = true ∧
      inner.isPunct "(" = true ∧ last.isPunct "(" = true ∧
      IsLeast {j | EvenThrough tokens 1 j} 10 ∧
      (∃ j, 7 < j ∧ j < 10 ∧ matchingParen tokens 7 = .ok j) ∧
      ∀ j, ¬ EvenThrough tokens 12 j := by
  obtain ⟨tokens, htokens, htest⟩ := exists_of_passes (show passes (fun tokens =>
      (tokens[1]?.any (·.isPunct "(") && tokens[7]?.any (·.isPunct "(") &&
        tokens[12]?.any (·.isPunct "(")) && passes (· == 10) (matchingParen tokens 1) &&
        failsBy (.refuse .unbalancedParentheses) (matchingParen tokens 12))
      (tokenize "f((a), (b)) (c") = true by decide +kernel)
  simp only [Bool.and_eq_true, Option.any_eq_true] at htest
  obtain ⟨⟨⟨⟨⟨t, ht, hopen⟩, inner, hinner, hopenInner⟩, last, hlast, hopenLast⟩, hclosed⟩,
    hunclosed⟩ := htest
  obtain ⟨i, hclosed, hten⟩ := exists_of_passes hclosed
  obtain rfl := eq_of_beq hten
  obtain ⟨hleast, -, -, hinside⟩ := matchingParen_closesFirst ht hopen
  obtain ⟨-, -, hnever, -⟩ := matchingParen_closesFirst hlast hopenLast
  refine ⟨tokens, t, inner, last, htokens, ht, hinner, hlast, hopen, hopenInner, hopenLast,
    (hleast 10).1 hclosed, ?_, ?_⟩
  · exact hinside 10 hclosed 7 inner (by omega) (by omega) hinner hopenInner
  · exact hnever.1 (eq_error_of_failsBy hunclosed)

end Matching

end Restate
