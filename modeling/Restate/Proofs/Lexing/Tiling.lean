import Mathlib.Data.List.Chain
import Restate.Lexing

/-!
# Tokens tile their text

The tokens of a statement follow one another without gap or overlap, and none is empty. Main
statement: what the lexer accepts is covered by its tokens from the first character to the last, and
what it refuses is covered by them up to the offset of the fault (`tokenize_covers`).
-/

namespace Restate

/-- The tokens follow one another from offset `start` up to offset `stop`, each as long as its
text. -/
def Tiles : Nat → List Token → Nat → Prop
  | start, [], stop => start = stop
  | start, t :: ts, stop =>
    t.text ≠ [] ∧ t.start = start ∧ t.stop = start + t.text.length ∧ Tiles t.stop ts stop

/-- The tokens cover a text from its first character to its last, and each of them is the stretch
of the text between its offsets. -/
structure Covers (tokens : List Token) (s : Text) : Prop where
  nonempty : ∀ t ∈ tokens, t.text ≠ []
  first : ∀ t ∈ tokens.head?, t.start = 0
  next : tokens.IsChain fun t u => u.start = t.stop
  last : ∀ t ∈ tokens.getLast?, t.stop = s.length
  slice : ∀ t ∈ tokens, t.text = s.extract t.start t.stop
  joined : sourceText tokens = s

/-- The token is what the lexer reads at the head of some text. -/
def Token.IsRead (t : Token) : Prop :=
  ∃ afterName c s rest, lexeme afterName c s = .ok (t.kind, t.text, rest)

@[simp]
theorem sourceText_cons (t : Token) (ts : List Token) :
    sourceText (t :: ts) = t.text ++ sourceText ts :=
  List.flatMap_cons

namespace Tiles

theorem append_iff {start stop : Nat} {ts us : List Token} :
    Tiles start (ts ++ us) stop ↔ ∃ middle, Tiles start ts middle ∧ Tiles middle us stop := by
  induction ts generalizing start with
  | nil => simp [Tiles]
  | cons t ts ih =>
      simp only [List.cons_append, Tiles, ih]
      constructor
      · rintro ⟨hne, hstart, hstop, middle, hts, hus⟩
        exact ⟨middle, ⟨hne, hstart, hstop, hts⟩, hus⟩
      · rintro ⟨middle, ⟨hne, hstart, hstop, hts⟩, hus⟩
        exact ⟨hne, hstart, hstop, middle, hts, hus⟩

theorem stop_eq {start stop : Nat} {ts : List Token} (h : Tiles start ts stop) :
    stop = start + (sourceText ts).length := by
  induction ts generalizing start with
  | nil => simpa [sourceText] using h.symm
  | cons t ts ih =>
      obtain ⟨-, -, hstop, hts⟩ := h
      rw [ih hts, hstop, sourceText_cons, List.length_append, Nat.add_assoc]

theorem nonempty {start stop : Nat} {ts : List Token} (h : Tiles start ts stop) :
    ∀ t ∈ ts, t.text ≠ [] := by
  induction ts generalizing start with
  | nil => simp
  | cons t ts ih =>
      obtain ⟨hne, -, -, hts⟩ := h
      exact List.forall_mem_cons.2 ⟨hne, ih hts⟩

theorem start_of_head {start stop : Nat} {ts : List Token} (h : Tiles start ts stop) :
    ∀ t ∈ ts.head?, t.start = start := by
  cases ts with
  | nil => simp
  | cons t ts =>
      intro u hu
      obtain rfl : t = u := by simpa using hu
      exact h.2.1

theorem isChain {start stop : Nat} {ts : List Token} (h : Tiles start ts stop) :
    ts.IsChain fun t u => u.start = t.stop := by
  induction ts generalizing start with
  | nil => exact .nil
  | cons t ts ih =>
      obtain ⟨-, -, -, hts⟩ := h
      exact List.isChain_cons.2 ⟨hts.start_of_head, ih hts⟩

theorem stop_of_getLast {start stop : Nat} {ts : List Token} (h : Tiles start ts stop) :
    ∀ t ∈ ts.getLast?, t.stop = stop := by
  induction ts generalizing start with
  | nil => simp
  | cons t ts ih =>
      obtain ⟨-, -, -, hts⟩ := h
      cases ts with
      | nil =>
          intro u hu
          obtain rfl : t = u := by simpa using hu
          exact hts
      | cons u ts =>
          rw [List.getLast?_cons_cons]
          exact ih hts

/-- Behind a text of as many characters as the tokens begin at, each token is where it says. -/
theorem text_eq_extract {start stop : Nat} {ts : List Token} (h : Tiles start ts stop)
    (before : Text) (hbefore : before.length = start) :
    ∀ t ∈ ts, t.text = (before ++ sourceText ts).extract t.start t.stop := by
  induction ts generalizing start before with
  | nil => simp
  | cons t ts ih =>
      obtain ⟨-, hstart, hstop, hts⟩ := h
      refine List.forall_mem_cons.2 ⟨?_, ?_⟩
      · rw [hstart, hstop, sourceText_cons, List.extract_eq_take_drop, ← hbefore,
          List.drop_left, Nat.add_sub_cancel_left, List.take_left]
      · rw [sourceText_cons, ← List.append_assoc]
        apply ih hts
        rw [List.length_append, hbefore, hstop]

theorem covers {s : Text} {ts : List Token} (h : Tiles 0 ts s.length) (hs : sourceText ts = s) :
    Covers ts s where
  nonempty := h.nonempty
  first := h.start_of_head
  next := h.isChain
  last := h.stop_of_getLast
  slice := by
    intro t ht
    rw [h.text_eq_extract [] rfl t ht, List.nil_append, hs]
  joined := hs

end Tiles

/-- The tokens read before a fault, or before the end, tile the text up to there. -/
theorem lexFrom_spec (offset : Nat) (afterName : Bool) (s : Text) :
    ∃ rest, s = sourceText (lexFrom offset afterName s).tokens ++ rest ∧
      Tiles offset (lexFrom offset afterName s).tokens
        (offset + (sourceText (lexFrom offset afterName s).tokens).length) ∧
      (∀ t ∈ (lexFrom offset afterName s).tokens, t.IsRead) ∧
      ((lexFrom offset afterName s).fault = none → rest = []) := by
  fun_induction lexFrom offset afterName s with
  | case1 => exact ⟨[], by simp [sourceText], by simp [Tiles, sourceText], by simp, fun _ => rfl⟩
  | case2 offset afterName c more fault h =>
      exact ⟨c :: more, by simp [sourceText], by simp [Tiles, sourceText], by simp, by simp⟩
  | case3 offset afterName c more kind text rest h token lexed ih =>
      obtain ⟨left, hleft, htiles, hread, hend⟩ := ih
      obtain ⟨hne, hof⟩ := takes_lexeme h
      have hof : text ++ rest = c :: more := hof
      refine ⟨left, ?_, ?_, ?_, hend⟩
      · rw [sourceText_cons, List.append_assoc, ← hleft, hof]
      · refine ⟨hne, rfl, rfl, ?_⟩
        rw [sourceText_cons, List.length_append, ← Nat.add_assoc]
        exact htiles
      · intro t ht
        rcases List.mem_cons.1 ht with rfl | ht
        · exact ⟨afterName, c, more, rest, h⟩
        · exact hread t ht

/-- A fault lies right behind the tokens read before it, and before the end of the text. -/
theorem lexFrom_fault {offset p : Nat} {afterName : Bool} {s : Text} {fault : LexFault}
    (h : (lexFrom offset afterName s).fault = some (fault, p)) :
    ∃ rest, rest ≠ [] ∧ s = sourceText (lexFrom offset afterName s).tokens ++ rest ∧
      p = offset + (sourceText (lexFrom offset afterName s).tokens).length := by
  fun_induction lexFrom offset afterName s with
  | case1 => simp at h
  | case2 offset afterName c more fault' hlex =>
      cases h
      exact ⟨c :: more, by simp, by simp [sourceText], by simp [sourceText]⟩
  | case3 offset afterName c more kind text rest hlex token lexed ih =>
      obtain ⟨left, hne, hleft, hp⟩ := ih h
      have hof : text ++ rest = c :: more := (takes_lexeme hlex).2
      refine ⟨left, hne, ?_, ?_⟩
      · rw [sourceText_cons, List.append_assoc, ← hleft, hof]
      · rw [sourceText_cons, List.length_append, ← Nat.add_assoc]
        exact hp

/-- What the lexer accepts is covered by its tokens. -/
theorem tiles_of_tokenize {sql : Text} {tokens : List Token} (h : tokenize sql = .ok tokens) :
    sourceText tokens = sql ∧ Tiles 0 tokens sql.length ∧ ∀ t ∈ tokens, t.IsRead := by
  obtain ⟨rest, hrest, htiles, hread, hend⟩ := lexFrom_spec 0 false sql
  unfold tokenize at h
  simp only at h
  split at h
  · next hnone =>
      cases h
      rw [hend hnone, List.append_nil] at hrest
      refine ⟨hrest.symm, ?_, hread⟩
      rw [Nat.zero_add, ← hrest] at htiles
      exact htiles
  · simp at h

/-- Every text is covered by its tokens, or up to a fault by the tokens read before it. -/
theorem tokenize_covers (sql : Text) :
    match tokenize sql with
    | .ok tokens => Covers tokens sql
    | .error e =>
      ∃ fault p, e = .lexical fault p sql ∧ p < sql.length ∧
        Covers (lexFrom 0 false sql).tokens (sql.take p) := by
  split
  · next tokens h =>
      obtain ⟨hsource, htiles, -⟩ := tiles_of_tokenize h
      exact htiles.covers hsource
  · next e h =>
      unfold tokenize at h
      simp only at h
      split at h
      · simp at h
      · next fault p hfault =>
          cases h
          obtain ⟨-, -, htiles, -⟩ := lexFrom_spec 0 false sql
          obtain ⟨rest, hne, hsql, hp⟩ := lexFrom_fault hfault
          rw [Nat.zero_add] at htiles hp
          generalize (lexFrom 0 false sql).tokens = tokens at htiles hsql hp
          have htake : sql.take p = sourceText tokens := by rw [hsql, hp, List.take_left]
          refine ⟨fault, p, rfl, ?_, ?_⟩
          · have := List.length_pos_iff.2 hne
            rw [hp, hsql, List.length_append]
            omega
          · apply Tiles.covers
            · rw [htake]
              exact htiles
            · exact htake.symm

end Restate
