import Mathlib.Data.List.Basic
import Mathlib.Data.List.Induction
import Restate.Proofs.Depth
import Restate.Proofs.Token

/-!
# Parts outside all parentheses

Tokens are separated where the depth before a separator is zero, and the depth is counted on from
part to part. Since it is zero at each separator, it is in each part what the part alone makes it.
Main statement: the parts with the separators between them are the tokens, there is one part more
than separators at depth zero, and none of them is left in a part (`splitTopLevel_separates`).
-/

namespace Restate

/-- What stands behind the last separator of the tokens. -/
def lastPart (separator : Text) (tokens : List Token) : List Token :=
  (splitTopLevel separator tokens).getLast?.getD []

/-- The places of the separators before which as many parentheses are closed as opened. -/
def separations (separator : Text) (tokens : List Token) : List Nat :=
  (List.range tokens.length).filter fun i =>
    tokens[i]?.any (·.isPunct separator) && decide (openParens (tokens.take i) = 0)

/-- No separator of a part stands behind as many parentheses closed as opened. -/
def Inseparable (separator : Text) (part : List Token) : Prop :=
  ∀ before mark after, part = before ++ mark :: after → mark.isPunct separator = true →
    openParens before ≠ 0

/-- How tokens are split: the parts before the last one, and the last one, in which the depth is
still the depth behind all tokens. -/
structure SplitsInto (separator : Text) (tokens : List Token) (front : List (List Token))
    (last : List Token) : Prop where
  joined : ∀ mark : Token, mark.isPunct separator = true →
    ([mark].intercalate (front ++ [last])).map Token.unplaced = tokens.map Token.unplaced
  counted : front.length = (separations separator tokens).length
  inseparable : ∀ part ∈ front ++ [last], Inseparable separator part
  depth : openParens last = openParens tokens

section Lists

variable {α : Type}

theorem forall_split_nil {P : List α → α → Prop} :
    ∀ before y after, [] = before ++ y :: after → P before y := by
  rintro (_ | ⟨_, _⟩) _ _ heq
  · simp at heq
  · simp at heq

/-- What holds of each member and what stands before it, when a further member is added. -/
theorem forall_split_concat {P : List α → α → Prop} {xs : List α} {x : α} :
    (∀ before y after, xs ++ [x] = before ++ y :: after → P before y) ↔
      (∀ before y after, xs = before ++ y :: after → P before y) ∧ P xs x := by
  constructor
  · intro h
    refine ⟨?_, h xs x [] rfl⟩
    rintro before y after rfl
    exact h before y (after ++ [x]) (by simp)
  · rintro ⟨hxs, hx⟩ before y after heq
    rcases List.eq_nil_or_concat' after with rfl | ⟨after, z, rfl⟩
    · obtain ⟨rfl, hlast⟩ := List.append_inj' heq rfl
      obtain rfl : x = y := by simpa using hlast
      exact hx
    · have heq' : xs ++ [x] = (before ++ y :: after) ++ [z] := by simpa using heq
      exact hxs before y after (List.append_inj' heq' rfl).1

/-- The splits of a list are those at its places. -/
theorem forall_split_iff {P : List α → α → Prop} {xs : List α} :
    (∀ before y after, xs = before ++ y :: after → P before y) ↔
      ∀ i : Fin xs.length, P (xs.take i) xs[i] := by
  constructor
  · intro h i
    apply h _ _ (xs.drop (i + 1))
    simp
  · rintro h before y after rfl
    have hplace := h ⟨before.length, by simp⟩
    simpa using hplace

theorem intercalate_concat (separator first last : List α) (parts : List (List α)) :
    List.intercalate separator (first :: parts ++ [last]) =
      List.intercalate separator (first :: parts) ++ separator ++ last := by
  induction parts generalizing first with
  | nil => simp [List.intercalate]
  | cons part parts ih =>
      have hrest := ih part
      simp only [List.intercalate, List.cons_append, List.intersperse_cons_cons,
        List.flatten_cons, List.append_assoc] at hrest ⊢
      rw [hrest]

/-- What is added to the last part is added to what the parts are joined to. -/
theorem intercalate_concat_append (separator last more : List α) (front : List (List α)) :
    List.intercalate separator (front ++ [last ++ more]) =
      List.intercalate separator (front ++ [last]) ++ more := by
  cases front with
  | nil => simp [List.intercalate]
  | cons first front =>
      rw [intercalate_concat, intercalate_concat]
      simp only [List.append_assoc]

end Lists

theorem flatten_consFirst (t : Token) (parts : List (List Token)) :
    (consFirst t parts).flatten = t :: parts.flatten := by
  cases parts with
  | nil => rfl
  | cons part parts => rfl

theorem length_consFirst (t : Token) {parts : List (List Token)} (h : parts ≠ []) :
    (consFirst t parts).length = parts.length := by
  cases parts with
  | nil => exact (h rfl).elim
  | cons part parts => rfl

section Separators

variable {separator : Text} (hopening : separator ≠ "(".toList)
  (hclosing : separator ≠ ")".toList) {tokens : List Token} {t : Token}
include hopening hclosing

theorem splitAtDepth_cons (depth : Int) (t : Token) (ts : List Token) :
    splitAtDepth separator depth (t :: ts) =
      if t.isPunct separator ∧ depth = 0 then
        [] :: splitAtDepth separator (depthAfter depth t) ts
      else consFirst t (splitAtDepth separator (depthAfter depth t) ts) := by
  unfold depthAfter
  rw [splitAtDepth]
  by_cases hopen : t.isPunct "(" = true
  · have hmark : t.isPunct separator = false := not_isPunct_of_isPunct hopen hopening.symm
    rw [if_pos hopen, if_pos hopen, hmark, if_neg (by simp)]
  · by_cases hclose : t.isPunct ")" = true
    · have hmark : t.isPunct separator = false := not_isPunct_of_isPunct hclose hclosing.symm
      rw [if_neg hopen, if_neg hopen, if_pos hclose, if_pos hclose, hmark, if_neg (by simp)]
    · rw [if_neg hopen, if_neg hopen, if_neg hclose, if_neg hclose]
      simp only [and_comm]

/-- A further token begins a part if it separates, and goes to the last one otherwise. -/
theorem splitAtDepth_concat (depth : Int) (ts : List Token) (t : Token) :
    splitAtDepth separator depth (ts ++ [t]) =
      if t.isPunct separator ∧ depth + openParens ts = 0 then
        splitAtDepth separator depth ts ++ [[]]
      else
        (splitAtDepth separator depth ts).dropLast
          ++ [(splitAtDepth separator depth ts).getLast?.getD [] ++ [t]] := by
  induction ts generalizing depth with
  | nil =>
      rw [List.nil_append, splitAtDepth_cons hopening hclosing]
      simp [splitAtDepth, openParens, consFirst]
  | cons u ts ih =>
      have hdepth : depth + openParens (u :: ts) = depthAfter depth u + openParens ts := by
        rw [openParens_cons, depthAfter_add]
      rw [List.cons_append, splitAtDepth_cons hopening hclosing,
        splitAtDepth_cons hopening hclosing, ih, hdepth]
      obtain ⟨part, parts, hparts⟩ :=
        List.exists_cons_of_ne_nil (splitAtDepth_ne_nil separator (depthAfter depth u) ts)
      rw [hparts]
      by_cases hseparator : u.isPunct separator = true ∧ depth = 0
      · rw [if_pos hseparator, if_pos hseparator]
        split
        · rfl
        · simp
      · rw [if_neg hseparator, if_neg hseparator]
        split
        · rfl
        · cases parts with
          | nil => simp [consFirst]
          | cons other parts => simp [consFirst]

/-- What a further token does to the parts. -/
theorem exists_splitTopLevel_concat (tokens : List Token) :
    ∃ front, splitTopLevel separator tokens = front ++ [lastPart separator tokens] ∧
      ∀ t, splitTopLevel separator (tokens ++ [t]) =
        if t.isPunct separator ∧ openParens tokens = 0 then
          front ++ [lastPart separator tokens] ++ [[]]
        else front ++ [lastPart separator tokens ++ [t]] := by
  rcases List.eq_nil_or_concat' (splitTopLevel separator tokens) with hnil | ⟨front, last, heq⟩
  · exact (splitAtDepth_ne_nil separator 0 tokens hnil).elim
  · have hlast : lastPart separator tokens = last := by simp [lastPart, heq]
    refine ⟨front, by rw [hlast, heq], fun t => ?_⟩
    unfold splitTopLevel at heq ⊢
    rw [splitAtDepth_concat hopening hclosing, Int.zero_add, heq, hlast]
    simp

end Separators

section Splitting

variable {separator : Text} {tokens : List Token} {t : Token}

theorem separations_concat (separator : Text) (tokens : List Token) (t : Token) :
    separations separator (tokens ++ [t]) = separations separator tokens ++
      if t.isPunct separator ∧ openParens tokens = 0 then [tokens.length] else [] := by
  unfold separations
  rw [List.length_append, List.length_singleton, List.range_succ, List.filter_append]
  congr 1
  · apply List.filter_congr
    intro i hi
    have hlt := List.mem_range.1 hi
    rw [List.getElem?_append_left hlt, List.take_append_of_le_length hlt.le]
  · simp [List.filter_cons]

theorem separations_eq_nil_iff :
    separations separator tokens = [] ↔ Inseparable separator tokens := by
  unfold separations Inseparable
  rw [List.filter_eq_nil_iff, forall_split_iff (P := fun before mark =>
    mark.isPunct separator = true → openParens before ≠ 0)]
  constructor
  · rintro h ⟨i, hi⟩ hmark hzero
    refine h i (List.mem_range.2 hi) ?_
    rw [List.getElem?_eq_getElem hi, Option.any_some, Bool.and_eq_true, decide_eq_true_iff]
    exact ⟨hmark, hzero⟩
  · intro h i hi
    have hlt := List.mem_range.1 hi
    rw [List.getElem?_eq_getElem hlt, Option.any_some, Bool.and_eq_true, decide_eq_true_iff]
    rintro ⟨hmark, hzero⟩
    exact h ⟨i, hlt⟩ hmark hzero

theorem inseparable_nil : Inseparable separator [] :=
  forall_split_nil

theorem inseparable_concat {part : List Token} :
    Inseparable separator (part ++ [t]) ↔
      Inseparable separator part ∧ (t.isPunct separator = true → openParens part ≠ 0) :=
  forall_split_concat (P := fun before (mark : Token) => mark.isPunct separator = true →
    openParens before ≠ 0)

theorem unplaced_eq_of_isPunct {u : Token} (ht : t.isPunct separator = true)
    (hu : u.isPunct separator = true) : t.unplaced = u.unplaced := by
  simp only [Token.isPunct, Bool.and_eq_true, beq_iff_eq] at ht hu
  exact Token.unplaced_eq (ht.1.trans hu.1.symm) (ht.2.trans hu.2.symm)

namespace SplitsInto

variable {front : List (List Token)} {last : List Token}

theorem nil : SplitsInto separator [] [] [] := by
  refine ⟨fun mark _ => by simp [List.intercalate], rfl, ?_, rfl⟩
  simpa using inseparable_nil

/-- A separator at depth zero ends the last part and is left out. -/
theorem separate (h : SplitsInto separator tokens front last) (hopening : separator ≠ "(".toList)
    (hclosing : separator ≠ ")".toList) (hmark : t.isPunct separator = true)
    (hzero : openParens tokens = 0) :
    SplitsInto separator (tokens ++ [t]) (front ++ [last]) [] := by
  refine ⟨?_, ?_, ?_, ?_⟩
  · intro mark hseparator
    obtain ⟨first, parts, hparts⟩ := List.exists_cons_of_ne_nil (l := front ++ [last]) (by simp)
    have hjoined := h.joined mark hseparator
    rw [hparts] at hjoined ⊢
    rw [intercalate_concat, List.append_nil, List.map_append, hjoined, List.map_append,
      List.map_singleton, List.map_singleton, unplaced_eq_of_isPunct hseparator hmark]
  · rw [separations_concat, if_pos ⟨hmark, hzero⟩, List.length_append, List.length_append,
      h.counted]
    rfl
  · rw [List.forall_mem_append, List.forall_mem_singleton]
    exact ⟨h.inseparable, inseparable_nil⟩
  · have hopen : t.isPunct "(" = false := not_isPunct_of_isPunct hmark hopening
    have hclose : t.isPunct ")" = false := not_isPunct_of_isPunct hmark hclosing
    rw [openParens_concat, depthAfter, hopen, hclose, hzero]
    rfl

/-- Any other token goes to the last part. -/
theorem extend (h : SplitsInto separator tokens front last)
    (hkept : ¬ (t.isPunct separator = true ∧ openParens tokens = 0)) :
    SplitsInto separator (tokens ++ [t]) front (last ++ [t]) := by
  refine ⟨?_, ?_, ?_, ?_⟩
  · intro mark hseparator
    rw [intercalate_concat_append, List.map_append, h.joined mark hseparator, List.map_append]
  · rw [separations_concat, if_neg hkept, List.append_nil, h.counted]
  · have hparts := h.inseparable
    rw [List.forall_mem_append, List.forall_mem_singleton] at hparts ⊢
    refine ⟨hparts.1, inseparable_concat.2 ⟨hparts.2, fun hmark hzero => ?_⟩⟩
    exact hkept ⟨hmark, h.depth ▸ hzero⟩
  · rw [openParens_concat, openParens_concat, h.depth]

end SplitsInto

section

variable (hopening : separator ≠ "(".toList) (hclosing : separator ≠ ")".toList)
include hopening hclosing

theorem splitsInto_of_splitTopLevel {front : List (List Token)} {last : List Token}
    (h : splitTopLevel separator tokens = front ++ [last]) :
    SplitsInto separator tokens front last := by
  induction tokens using List.reverseRecOn generalizing front last with
  | nil =>
      obtain ⟨rfl, hlast⟩ := List.append_inj' (show [] ++ [[]] = front ++ [last] from h) rfl
      obtain rfl := List.singleton_inj.1 hlast
      exact .nil
  | append_singleton tokens t ih =>
      obtain ⟨front', hfront, hnext⟩ := exists_splitTopLevel_concat hopening hclosing tokens
      have hsplit := ih hfront
      rw [hnext] at h
      split at h
      · next hseparator =>
          obtain ⟨rfl, hlast⟩ := List.append_inj' h rfl
          obtain rfl := List.singleton_inj.1 hlast
          exact hsplit.separate hopening hclosing hseparator.1 hseparator.2
      · next hkept =>
          obtain ⟨rfl, hlast⟩ := List.append_inj' h rfl
          obtain rfl := List.singleton_inj.1 hlast
          exact hsplit.extend hkept

theorem exists_splitsInto (tokens : List Token) :
    ∃ front, splitTopLevel separator tokens = front ++ [lastPart separator tokens] ∧
      SplitsInto separator tokens front (lastPart separator tokens) := by
  obtain ⟨front, hfront, -⟩ := exists_splitTopLevel_concat hopening hclosing tokens
  exact ⟨front, hfront, splitsInto_of_splitTopLevel hopening hclosing hfront⟩

theorem openParens_lastPart (tokens : List Token) :
    openParens (lastPart separator tokens) = openParens tokens := by
  obtain ⟨front, -, hsplit⟩ := exists_splitsInto hopening hclosing tokens
  exact hsplit.depth

theorem length_splitTopLevel (tokens : List Token) :
    (splitTopLevel separator tokens).length = (separations separator tokens).length + 1 := by
  obtain ⟨front, hfront, hsplit⟩ := exists_splitsInto hopening hclosing tokens
  rw [hfront, List.length_append, hsplit.counted]
  rfl

/-- There is one part just if no separator stands at depth zero. -/
theorem length_splitTopLevel_eq_one_iff :
    (splitTopLevel separator tokens).length = 1 ↔ Inseparable separator tokens := by
  rw [length_splitTopLevel hopening hclosing, Nat.add_eq_right, List.length_eq_zero_iff,
    separations_eq_nil_iff]

end

/-- Splitting loses no token and leaves no separator: the parts with a separator between each two
are the tokens, but for offsets; there is one part more than separators before which as many
parentheses are closed as opened; and in no part stands a separator before which as many are. -/
theorem splitTopLevel_separates (hopening : separator ≠ "(".toList)
    (hclosing : separator ≠ ")".toList) (tokens : List Token) :
    (∀ mark : Token, mark.isPunct separator = true →
      ([mark].intercalate (splitTopLevel separator tokens)).map Token.unplaced =
        tokens.map Token.unplaced) ∧
    (splitTopLevel separator tokens).length = (separations separator tokens).length + 1 ∧
    ∀ part ∈ splitTopLevel separator tokens, Inseparable separator part := by
  obtain ⟨front, hfront, hsplit⟩ := exists_splitsInto hopening hclosing tokens
  refine ⟨?_, length_splitTopLevel hopening hclosing tokens, ?_⟩
  · rw [hfront]
    exact hsplit.joined
  · rw [hfront]
    exact hsplit.inseparable

/-- A parenthesis too many is closed, so a comma inside the next one separates. -/
theorem splitTopLevel_separates_uneven :
    ∃ tokens, tokenize "a, (b, c)), d, (e, f" = .ok tokens ∧ ",".toList ≠ "(".toList ∧
      ",".toList ≠ ")".toList ∧ separations "," tokens = [1, 17] ∧
      (∀ mark : Token, mark.isPunct "," = true →
        ([mark].intercalate (splitTopLevel "," tokens)).map Token.unplaced =
          tokens.map Token.unplaced) ∧
      (splitTopLevel "," tokens).length = 3 ∧
      ∀ part ∈ splitTopLevel "," tokens, Inseparable "," part := by
  obtain ⟨tokens, htokens, hplaces⟩ := exists_of_passes (show passes (fun tokens => decide
      (separations "," tokens = [1, 17])) (tokenize "a, (b, c)), d, (e, f") = true by
      decide +kernel)
  have hplaces := of_decide_eq_true hplaces
  obtain ⟨hjoined, hcount, hparts⟩ :=
    splitTopLevel_separates (show ",".toList ≠ "(".toList by decide) (by decide) tokens
  rw [hplaces] at hcount
  exact ⟨tokens, htokens, by decide, by decide, hplaces, hjoined, hcount, hparts⟩

end Splitting

end Restate
