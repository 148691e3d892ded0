import Mathlib.Data.List.Pairwise
import Restate.Proofs.Lexing.Tiling
import Restate.Proofs.Moved

/-!
# Tokens with other gaps between them

Two statements that differ in white space and comments only have the same significant tokens, and
the same of them touch. Such tokens can be moved to common places by strictly increasing moves, so
whatever such a move leaves alone is the same for both. Main statement: `Respaced.exists_moved`.
-/

namespace Restate

/-- Which tokens touch the one behind them. -/
def joints (tokens : List Token) : List Bool :=
  List.zipWith Token.touches tokens tokens.tail

/-- The tokens agree in kind and text, and the same neighbours touch. -/
structure Respaced (ts us : List Token) : Prop where
  unplaced : ts.map Token.unplaced = us.map Token.unplaced
  joints : joints ts = joints us

instance (ts us : List Token) : Decidable (Respaced ts us) :=
  decidable_of_iff
    (ts.map Token.unplaced = us.map Token.unplaced ∧ Restate.joints ts = Restate.joints us)
    ⟨fun h => ⟨h.1, h.2⟩, fun h => ⟨h.1, h.2⟩⟩

/-- The tokens follow one another, each of them longer than nothing. -/
def Ordered (tokens : List Token) : Prop :=
  (∀ t ∈ tokens, t.start < t.stop) ∧ tokens.Pairwise fun t u => t.stop ≤ u.start

/-- The offsets at which the tokens of two lists start and stop, in pairs. -/
def edges : List Token → List Token → List (Nat × Nat)
  | t :: ts, u :: us => (t.start, u.start) :: (t.stop, u.stop) :: edges ts us
  | _, _ => []

/-- The offsets of the first pair come before those of the second, or are equal to them together. -/
def Edge (p q : Nat × Nat) : Prop :=
  p.1 < q.1 ∧ p.2 < q.2 ∨ p = q

/-- An offset, put off by the greatest of those that are paired with offsets up to it. -/
def spread (n : Nat) : List (Nat × Nat) → Nat
  | [] => n
  | p :: pairs => if p.1 ≤ n then max (n + p.2) (spread n pairs) else spread n pairs

instance : Trans Edge Edge Edge where
  trans := by
    rintro p q r (⟨hpq, hpq'⟩ | rfl) hqr
    · rcases hqr with ⟨hqr, hqr'⟩ | rfl
      · exact .inl ⟨hpq.trans hqr, hpq'.trans hqr'⟩
      · exact .inl ⟨hpq, hpq'⟩
    · exact hqr

theorem Token.touches_iff {t u : Token} : t.touches u = true ↔ t.stop = u.start :=
  beq_iff_eq

variable {pairs : List (Nat × Nat)} {ts us : List Token} {t u : Token}

theorem spread_strictMono (pairs : List (Nat × Nat)) : StrictMono fun n => spread n pairs := by
  intro m n hlt
  induction pairs with
  | nil => exact hlt
  | cons p pairs ih =>
      simp only [spread] at ih ⊢
      split
      · rw [if_pos (by omega)]
        omega
      · split
        · omega
        · exact ih

theorem spread_le {n bound : Nat} (h : ∀ q ∈ pairs, q.1 ≤ n → q.2 ≤ bound) :
    spread n pairs ≤ n + bound := by
  induction pairs with
  | nil => exact Nat.le_add_right n bound
  | cons p pairs ih =>
      obtain ⟨hp, hpairs⟩ := List.forall_mem_cons.1 h
      have := ih hpairs
      rw [spread]
      split
      · next hle =>
          have := hp hle
          omega
      · exact ih hpairs

theorem le_spread {n : Nat} {p : Nat × Nat} (hp : p ∈ pairs) (hle : p.1 ≤ n) :
    n + p.2 ≤ spread n pairs := by
  induction pairs with
  | nil => simp at hp
  | cons q pairs ih =>
      rw [spread]
      rcases List.mem_cons.1 hp with rfl | hp
      · rw [if_pos hle]
        exact Nat.le_max_left _ _
      · have := ih hp
        split
        · omega
        · exact this

theorem spread_of_mem {p : Nat × Nat} (hp : p ∈ pairs)
    (hle : ∀ q ∈ pairs, q.1 ≤ p.1 → q.2 ≤ p.2) : spread p.1 pairs = p.1 + p.2 :=
  Nat.le_antisymm (spread_le hle) (le_spread hp (Nat.le_refl _))

/-- Pairs that are in order on both sides can be moved to common places. -/
theorem exists_spread (h : ∀ p ∈ pairs, ∀ q ∈ pairs, p.1 ≤ q.1 ↔ p.2 ≤ q.2) :
    ∃ f g : Nat → Nat, StrictMono f ∧ StrictMono g ∧ ∀ p ∈ pairs, f p.1 = g p.2 := by
  refine ⟨fun n => spread n pairs, fun n => spread n (pairs.map Prod.swap),
    spread_strictMono _, spread_strictMono _, ?_⟩
  intro p hp
  have hswap : spread p.2 (pairs.map Prod.swap) = p.2 + p.1 := by
    apply spread_of_mem (p := p.swap) (List.mem_map_of_mem hp)
    intro q hq
    obtain ⟨r, hr, rfl⟩ := List.mem_map.1 hq
    exact (h r hr p hp).2
  change spread p.1 pairs = spread p.2 (pairs.map Prod.swap)
  rw [hswap, spread_of_mem hp fun q hq => (h q hq p hp).1, Nat.add_comm]

namespace Ordered

theorem uncons (h : Ordered (t :: ts)) : t.start < t.stop ∧ Ordered ts := by
  obtain ⟨hlt, hpairwise⟩ := h
  obtain ⟨ht, hts⟩ := List.forall_mem_cons.1 hlt
  exact ⟨ht, hts, (List.pairwise_cons.1 hpairwise).2⟩

theorem stop_le (h : Ordered (t :: u :: ts)) : t.stop ≤ u.start :=
  (List.pairwise_cons.1 h.2).1 u List.mem_cons_self

theorem filter (h : Ordered ts) (p : Token → Bool) : Ordered (ts.filter p) :=
  ⟨fun t ht => h.1 t (List.mem_filter.1 ht).1, h.2.filter p⟩

end Ordered

theorem Tiles.ordered {start stop : Nat} (h : Tiles start ts stop) :
    Ordered ts ∧ ∀ t ∈ ts, start ≤ t.start := by
  induction ts generalizing start with
  | nil => exact ⟨⟨by simp, .nil⟩, by simp⟩
  | cons t ts ih =>
      obtain ⟨hne, rfl, hstop, hrest⟩ := h
      obtain ⟨⟨hlt, hpairwise⟩, hle⟩ := ih hrest
      have hpos := List.length_pos_iff.2 hne
      have hstart : t.start < t.stop := by omega
      refine ⟨⟨List.forall_mem_cons.2 ⟨hstart, hlt⟩, List.pairwise_cons.2 ⟨hle, hpairwise⟩⟩, ?_⟩
      refine List.forall_mem_cons.2 ⟨Nat.le_refl _, fun u hu => ?_⟩
      have := hle u hu
      omega

/-- The significant tokens of a statement follow one another. -/
theorem ordered_significant {sql : Text} (h : tokenize sql = .ok ts) : Ordered (significant ts) :=
  (tiles_of_tokenize h).2.1.ordered.1.filter _

namespace Respaced

theorem uncons (h : Respaced (t :: ts) (u :: us)) : t.unplaced = u.unplaced ∧ Respaced ts us := by
  obtain ⟨hunplaced, hjoints⟩ := h
  simp only [List.map_cons, List.cons.injEq] at hunplaced
  refine ⟨hunplaced.1, hunplaced.2, ?_⟩
  cases ts with
  | nil =>
      obtain rfl : us = [] := by simpa using hunplaced.2.symm
      rfl
  | cons t' ts =>
      cases us with
      | nil => simp at hunplaced
      | cons u' us => exact (List.cons.inj hjoints).2

theorem touches_eq {t' u' : Token} (h : Respaced (t :: t' :: ts) (u :: u' :: us)) :
    t.touches t' = u.touches u' :=
  (List.cons.inj h.joints).1

theorem isChain_edges (h : Respaced ts us) (hts : Ordered ts) (hus : Ordered us) :
    (edges ts us).IsChain Edge := by
  induction ts generalizing us with
  | nil => exact .nil
  | cons t ts ih =>
      cases us with
      | nil => exact .nil
      | cons u us =>
          obtain ⟨ht, hts'⟩ := hts.uncons
          obtain ⟨hu, hus'⟩ := hus.uncons
          have hrest := ih h.uncons.2 hts' hus'
          refine List.isChain_cons_cons.2 ⟨.inl ⟨ht, hu⟩, ?_⟩
          cases ts with
          | nil => exact .singleton _
          | cons t' ts =>
              cases us with
              | nil => exact .singleton _
              | cons u' us =>
                  have htouches : t.stop = t'.start ↔ u.stop = u'.start := by
                    rw [← Token.touches_iff, ← Token.touches_iff, h.touches_eq]
                  have htstop := hts.stop_le
                  have hustop := hus.stop_le
                  refine List.isChain_cons_cons.2 ⟨?_, hrest⟩
                  by_cases htouch : t.stop = t'.start
                  · exact .inr (Prod.ext htouch (htouches.1 htouch))
                  · have hgap := mt htouches.2 htouch
                    exact .inl ⟨by simp only; omega, by simp only; omega⟩

theorem moved_eq {f g : Nat → Nat} (h : Respaced ts us)
    (hedges : ∀ p ∈ edges ts us, f p.1 = g p.2) :
    ts.map (Token.moved f) = us.map (Token.moved g) := by
  induction ts generalizing us with
  | nil =>
      obtain rfl : us = [] := by simpa using h.unplaced.symm
      rfl
  | cons t ts ih =>
      cases us with
      | nil => simpa using h.unplaced
      | cons u us =>
          obtain ⟨hunplaced, hrest⟩ := h.uncons
          obtain ⟨hstart, hstop, hmore⟩ := by
            simpa only [edges, List.forall_mem_cons] using hedges
          rw [List.map_cons, List.map_cons, ih hrest hmore]
          refine congrArg (· :: _) ?_
          rw [Token.moved, Token.moved, Token.kind_of_unplaced hunplaced,
            Token.text_of_unplaced hunplaced, hstart, hstop]

/-- Tokens that differ in the gaps between them are the same once all have moved in order. -/
theorem exists_moved (h : Respaced ts us) (hts : Ordered ts) (hus : Ordered us) :
    ∃ f g : Nat → Nat, StrictMono f ∧ StrictMono g ∧
      ts.map (Token.moved f) = us.map (Token.moved g) := by
  have hpairwise := (h.isChain_edges hts hus).pairwise
  have horder : ∀ p ∈ edges ts us, ∀ q ∈ edges ts us, p.1 ≤ q.1 ↔ p.2 ≤ q.2 := by
    refine List.Pairwise.forall_of_forall_of_flip (fun _ _ => by simp)
      (hpairwise.imp ?_) (hpairwise.imp ?_)
    · rintro p q (⟨hfirst, hsecond⟩ | rfl)
      · exact iff_of_true (Nat.le_of_lt hfirst) (Nat.le_of_lt hsecond)
      · simp
    · rintro p q (⟨hfirst, hsecond⟩ | rfl)
      · exact iff_of_false (Nat.not_le.2 hfirst) (Nat.not_le.2 hsecond)
      · simp [flip]
  obtain ⟨f, g, hf, hg, hedges⟩ := exists_spread horder
  exact ⟨f, g, hf, hg, h.moved_eq hedges⟩

end Respaced

end Restate
