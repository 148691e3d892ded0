import Restate.Proofs.Schema.Clauses
import Restate.Proofs.Schema.NewTable

/-!
# Reading forward only

The methods of a cursor may be called in any order, with any arguments, and also after calls that
failed. What a call does is told here by places alone, that is by how many tokens lie before the
cursor. Main statement: the place is always among the tokens and never goes back; a call that
succeeds goes past exactly the tokens it hands over, and one that finds nothing or fails stays where
it is, but for a search for a name, which may pass one token that is none
(`Cursor.calls_forwardOnly`).
-/

namespace Restate

namespace Cursor

/-- A call of one of the methods of a cursor. -/
inductive Call where
  | peek (offset : Nat)
  | atEnd
  | advance
  | acceptWord (words : List Text)
  | expectWord (words : List Text)
  | acceptWords (sequence : List Text)
  | acceptPunct (mark : Text)
  | acceptOperator (sign : Text)
  | identifier
  | tableName
  | parenthesized
  | remaining

/-- What a call answers if it does not fail. -/
@[reducible]
def Call.Answer : Call → Type
  | .peek _ => Option (Option Token)
  | .atEnd => Bool
  | .advance => Token
  | .acceptWord _ => Option Token
  | .expectWord _ => Token
  | .acceptWords _ => Bool
  | .acceptPunct _ => Option Token
  | .acceptOperator _ => Option Token
  | .identifier => Text
  | .tableName => Text
  | .parenthesized => List Token
  | .remaining => List Token

def Call.reading : (call : Call) → Reading call.Answer
  | .peek offset => do return (← Reading.here).peek offset
  | .atEnd => do return (← Reading.here).atEnd
  | .advance => Reading.advance
  | .acceptWord words => Reading.acceptWord words
  | .expectWord words => Reading.expectWord words
  | .acceptWords sequence => Reading.acceptWords sequence
  | .acceptPunct mark => Reading.acceptPunct mark
  | .acceptOperator sign => Reading.acceptOperator sign
  | .identifier => Reading.identifier
  | .tableName => Reading.tableName
  | .parenthesized => Reading.parenthesized
  | .remaining => Reading.remaining

/-- The cursor behind a sequence of calls, whether they succeed or fail. -/
def after : List Call → Cursor → Cursor
  | [], c => c
  | call :: calls, c => after calls (call.reading c).2

/-- The tokens are the words of the sequence, one by one. -/
def IsSequence (sequence : List Text) (ts : List Token) : Prop :=
  List.Forall₂ (fun word t => t.isWord [word] = true) sequence ts

section Places

variable (tokens : List Token) (pos pos' : Nat)

/-- Between the places lie exactly these tokens. -/
def Crosses (crossed : List Token) : Prop :=
  pos' = pos + crossed.length ∧ tokens.extract pos pos' = crossed

/-- The later place is not before the earlier one, and not behind the tokens. -/
def Within : Prop :=
  pos ≤ pos' ∧ pos' ≤ tokens.length

/-- The next token is handed over if it has a property; otherwise nothing is, and the place stays. -/
def Accepts (p : Token → Bool) : Option Token → Prop
  | some t => Crosses tokens pos pos' [t] ∧ p t = true
  | none => pos' = pos ∧ ∀ t ∈ tokens[pos]?, p t = false

/-- There is no name: the tokens are at their end, or the next one is no name and is passed. -/
def LacksName : Prop :=
  pos' = pos ∧ tokens[pos]? = none ∨ ∃ t, Crosses tokens pos pos' [t] ∧ ¬ t.isName

namespace Call

/-- What a call that succeeds hands over are the tokens between the places before and behind it. A
name stands for its token, a sequence of words that is found for its tokens, and what stands inside
a parenthesis for the parenthesis. -/
def HandsOver : (call : Call) → call.Answer → Prop
  | peek offset, found => pos' = pos ∧ found = some tokens[pos + offset]?
  | atEnd, ended => pos' = pos ∧ (ended = true ↔ tokens.length ≤ pos)
  | advance, t => Crosses tokens pos pos' [t]
  | acceptWord words, found => Accepts tokens pos pos' (·.isWord words) found
  | expectWord words, t => Crosses tokens pos pos' [t] ∧ t.isWord words = true
  | acceptWords sequence, true =>
    ∃ crossed, Crosses tokens pos pos' crossed ∧ IsSequence sequence crossed
  | acceptWords sequence, false =>
    pos' = pos ∧ ∀ crossed, IsSequence sequence crossed → ¬ crossed <+: tokens.drop pos
  | acceptPunct mark, found => Accepts tokens pos pos' (·.isPunct mark) found
  | acceptOperator sign, found => Accepts tokens pos pos' (·.isOperator sign) found
  | identifier, name => ∃ t, Crosses tokens pos pos' [t] ∧ t.isName ∧ name = t.value
  | tableName, name => ∃ t, Crosses tokens pos pos' [t] ∧ t.isName ∧ name = t.value ∧
    ∀ u ∈ tokens[pos']?, u.isPunct "." = false
  | parenthesized, inner => ∃ group, Crosses tokens pos pos' group ∧ IsGroup inner group
  | remaining, rest => Crosses tokens pos pos' rest ∧ pos' = tokens.length

/-- A call that fails does not find what it is for. The place stays, but in search of a name one
token may be passed. The calls left out here never fail. -/
def FallsShort : Call → Prop
  | advance => pos' = pos ∧ tokens[pos]? = none
  | expectWord words => pos' = pos ∧ ∀ t ∈ tokens[pos]?, t.isWord words = false
  | identifier => LacksName tokens pos pos'
  | tableName => LacksName tokens pos pos' ∨
    ∃ t, Crosses tokens pos pos' [t] ∧ t.isName ∧ ∃ u ∈ tokens[pos']?, u.isPunct "." = true
  | parenthesized => pos' = pos ∧ ∀ inner group, IsGroup inner group → ¬ group <+: tokens.drop pos
  | _ => False

/-- How a call that leads from one place to another comes out. -/
def Leads (call : Call) : Except Error call.Answer → Prop
  | .ok answer => call.HandsOver tokens pos pos' answer
  | .error _ => call.FallsShort tokens pos pos'

end Call

end Places

section Within

variable {tokens crossed : List Token} {pos pos' : Nat} {call : Call}
variable (hpos : pos ≤ tokens.length)
include hpos

theorem within_of_eq (h : pos' = pos) : Within tokens pos pos' := by
  subst h
  exact ⟨le_rfl, hpos⟩

/-- One cannot go past more tokens than there are. -/
theorem within_of_crosses (h : Crosses tokens pos pos' crossed) : Within tokens pos pos' := by
  obtain ⟨hplace, hcrossed⟩ := h
  have hlength := congrArg List.length hcrossed
  rw [List.extract, List.length_take, List.length_drop] at hlength
  constructor
  · omega
  · omega

theorem within_of_accepts {p : Token → Bool} {found : Option Token}
    (h : Accepts tokens pos pos' p found) : Within tokens pos pos' := by
  cases found with
  | none => exact within_of_eq hpos h.1
  | some t => exact within_of_crosses hpos h.1

theorem within_of_lacksName (h : LacksName tokens pos pos') : Within tokens pos pos' := by
  rcases h with ⟨heq, -⟩ | ⟨t, hcrosses, -⟩
  · exact within_of_eq hpos heq
  · exact within_of_crosses hpos hcrosses

theorem within_of_handsOver {answer : call.Answer}
    (h : call.HandsOver tokens pos pos' answer) : Within tokens pos pos' := by
  cases call with
  | peek offset => exact within_of_eq hpos h.1
  | atEnd => exact within_of_eq hpos h.1
  | advance => exact within_of_crosses hpos h
  | acceptWord words => exact within_of_accepts hpos h
  | expectWord words => exact within_of_crosses hpos h.1
  | acceptWords sequence =>
      cases answer with
      | true =>
          obtain ⟨crossed, hcrosses, -⟩ := h
          exact within_of_crosses hpos hcrosses
      | false => exact within_of_eq hpos h.1
  | acceptPunct mark => exact within_of_accepts hpos h
  | acceptOperator sign => exact within_of_accepts hpos h
  | identifier =>
      obtain ⟨t, hcrosses, -⟩ := h
      exact within_of_crosses hpos hcrosses
  | tableName =>
      obtain ⟨t, hcrosses, -⟩ := h
      exact within_of_crosses hpos hcrosses
  | parenthesized =>
      obtain ⟨group, hcrosses, -⟩ := h
      exact within_of_crosses hpos hcrosses
  | remaining => exact within_of_crosses hpos h.1

theorem within_of_fallsShort (h : call.FallsShort tokens pos pos') : Within tokens pos pos' := by
  cases call with
  | advance => exact within_of_eq hpos h.1
  | expectWord words => exact within_of_eq hpos h.1
  | identifier => exact within_of_lacksName hpos h
  | tableName =>
      rcases h with hlacks | ⟨t, hcrosses, -⟩
      · exact within_of_lacksName hpos hlacks
      · exact within_of_crosses hpos hcrosses
  | parenthesized => exact within_of_eq hpos h.1
  | peek | atEnd | acceptWord | acceptWords | acceptPunct | acceptOperator | remaining => cases h

/-- However a call comes out, it leads from a place among the tokens forward to another. -/
theorem within_of_leads {outcome : Except Error call.Answer}
    (h : call.Leads tokens pos pos' outcome) : Within tokens pos pos' := by
  cases outcome with
  | ok answer => exact within_of_handsOver hpos h
  | error e => exact within_of_fallsShort hpos h

end Within

section Ahead

variable {c : Cursor} {piece rest : List Token} {n : Nat}

theorem drop_pos (c : Cursor) : c.tokens.drop c.pos = c.ahead := by
  simp [pos, tokens]

theorem getElem?_pos_add (c : Cursor) (n : Nat) : c.tokens[c.pos + n]? = c.ahead[n]? := by
  rw [← List.getElem?_drop, drop_pos]

theorem getElem?_pos (c : Cursor) : c.tokens[c.pos]? = c.ahead.head? := by
  rw [← Nat.add_zero c.pos, getElem?_pos_add, List.head?_eq_getElem?]

theorem pos_skip (h : n ≤ c.ahead.length) : (c.skip n).pos = c.pos + n := by
  simp [pos, skip, Nat.min_eq_left h, Nat.add_comm]

theorem skip_of_ahead (h : c.ahead = piece ++ rest) :
    c.skip piece.length = ⟨piece.reverse ++ c.passed, rest⟩ := by
  simp [skip, h]

theorem crosses_take (h : n ≤ c.ahead.length) :
    Crosses c.tokens c.pos (c.pos + n) (c.ahead.take n) := by
  constructor
  · rw [List.length_take, Nat.min_eq_left h]
  · rw [List.extract, drop_pos, Nat.add_sub_cancel_left]

theorem crosses_of_ahead (h : c.ahead = piece ++ rest) :
    Crosses c.tokens c.pos (c.pos + piece.length) piece := by
  have hcrosses := crosses_take (show piece.length ≤ c.ahead.length by simp [h])
  rwa [h, List.take_left] at hcrosses

theorem crosses_head {t : Token} (h : c.ahead = t :: rest) :
    Crosses c.tokens c.pos (c.pos + 1) [t] :=
  crosses_of_ahead (show c.ahead = [t] ++ rest from h)

end Ahead

end Cursor

namespace Reading

variable {α β : Type} {x : Reading α} {c c' : Cursor} {e : Error}

theorem bind_of_error (h : x c = (.error e, c')) (f : α → Reading β) :
    (x >>= f) c = (.error e, c') := by
  simp only [bind, h]

/-- Where the piece of a reading lies ahead, the reading skips it. -/
theorem Yields.skips {a : α} {piece rest : List Token} (h : Yields x piece a rest)
    (hahead : c.ahead = piece ++ rest) : x c = (.ok a, c.skip piece.length) := by
  rw [Cursor.skip_of_ahead hahead, ← h c.passed, ← hahead]

theorem advance_of_end (h : c.ahead = []) :
    advance c = (.error (.refuse .unexpectedEnd), c) := by
  rw [advance, h]

/-- A parenthesis that is refused is not passed. -/
theorem group_error (h : Reading.group c = (.error e, c')) : c' = c := by
  unfold Reading.group at h
  split at h
  · split at h
    · split at h
      · cases h
      · cases h
        rfl
    · cases h
      rfl
  · cases h
    rfl

end Reading

namespace Cursor

variable {c : Cursor} {n : Nat}

namespace Call

/-- The call keeps the tokens, and leads from the place before it to the place behind it. -/
structure Moves (call : Call) (c : Cursor) : Prop where
  tokens : (call.reading c).2.tokens = c.tokens
  leads : call.Leads c.tokens c.pos (call.reading c).2.pos (call.reading c).1

section Moves

variable {call : Call} {answer : call.Answer} {e : Error} {piece rest : List Token}

theorem moves_of_ok (hn : n ≤ c.ahead.length) (h : call.reading c = (.ok answer, c.skip n))
    (hanswer : call.HandsOver c.tokens c.pos (c.pos + n) answer) : call.Moves c := by
  constructor
  · rw [h, tokens_skip]
  · rw [h, pos_skip hn]
    exact hanswer

theorem moves_of_error (hn : n ≤ c.ahead.length) (h : call.reading c = (.error e, c.skip n))
    (hshort : call.FallsShort c.tokens c.pos (c.pos + n)) : call.Moves c := by
  constructor
  · rw [h, tokens_skip]
  · rw [h, pos_skip hn]
    exact hshort

theorem moves_of_ok_stays (h : call.reading c = (.ok answer, c))
    (hanswer : call.HandsOver c.tokens c.pos c.pos answer) : call.Moves c :=
  moves_of_ok (Nat.zero_le _) (by rw [skip_zero, h]) hanswer

theorem moves_of_error_stays (h : call.reading c = (.error e, c))
    (hshort : call.FallsShort c.tokens c.pos c.pos) : call.Moves c :=
  moves_of_error (Nat.zero_le _) (by rw [skip_zero, h]) hshort

theorem moves_of_yields (h : Reading.Yields call.reading piece answer rest)
    (hahead : c.ahead = piece ++ rest)
    (hanswer : call.HandsOver c.tokens c.pos (c.pos + piece.length) answer) : call.Moves c :=
  moves_of_ok (by simp [hahead]) (h.skips hahead) hanswer

end Moves

theorem moves_peek (offset : Nat) (c : Cursor) : (peek offset).Moves c := by
  have hread : (peek offset).reading c = (.ok (c.peek offset), c) := rfl
  refine moves_of_ok_stays hread ⟨rfl, ?_⟩
  rw [Cursor.peek, if_pos (by omega)]
  rfl

theorem moves_atEnd (c : Cursor) : atEnd.Moves c := by
  have hread : atEnd.reading c = (.ok c.atEnd, c) := rfl
  refine moves_of_ok_stays hread ⟨rfl, ?_⟩
  rw [Cursor.atEnd, List.isEmpty_iff, ← drop_pos, List.drop_eq_nil_iff]

theorem moves_advance (c : Cursor) : advance.Moves c := by
  cases hahead : c.ahead with
  | nil =>
      refine moves_of_error_stays (Reading.advance_of_end hahead) ⟨rfl, ?_⟩
      rw [getElem?_pos, hahead, List.head?_nil]
  | cons t rest => exact moves_of_yields .advance hahead (crosses_head hahead)

/-- Accepting never fails, and takes the next token just if it has the property. -/
theorem exists_accept (p : Token → Bool) (c : Cursor) : ∃ n ≤ c.ahead.length, ∃ found,
    Reading.accept p c = (.ok found, c.skip n) ∧ Accepts c.tokens c.pos (c.pos + n) p found := by
  cases hnext : c.ahead.head?.any p with
  | true =>
      obtain ⟨t, hhead, ht⟩ := (Option.any_eq_true _ _).1 hnext
      obtain ⟨rest, hahead⟩ := List.head?_eq_some_iff.1 hhead
      exact ⟨1, by simp [hahead], some t, Reading.accept_of_ahead hahead ht,
        crosses_head hahead, ht⟩
  | false =>
      have hother : ∀ t ∈ c.ahead.head?, p t = false := by
        simpa [Option.any_eq_false] using hnext
      refine ⟨0, Nat.zero_le _, none, ?_, rfl, ?_⟩
      · rw [Reading.accept_of_other hother, skip_zero]
      · rwa [getElem?_pos]

theorem moves_acceptWord (words : List Text) (c : Cursor) : (acceptWord words).Moves c := by
  obtain ⟨n, hn, found, hread, hfound⟩ := exists_accept (·.isWord words) c
  exact moves_of_ok hn hread hfound

theorem moves_acceptPunct (mark : Text) (c : Cursor) : (acceptPunct mark).Moves c := by
  obtain ⟨n, hn, found, hread, hfound⟩ := exists_accept (·.isPunct mark) c
  exact moves_of_ok hn hread hfound

theorem moves_acceptOperator (sign : Text) (c : Cursor) : (acceptOperator sign).Moves c := by
  obtain ⟨n, hn, found, hread, hfound⟩ := exists_accept (·.isOperator sign) c
  exact moves_of_ok hn hread hfound

theorem moves_expectWord (words : List Text) (c : Cursor) : (expectWord words).Moves c := by
  obtain ⟨n, hn, found, haccept, hfound⟩ := exists_accept (·.isWord words) c
  have hread := Reading.bind_of_ok haccept fun found => match found with
    | some t => pure t
    | none => do Reading.fail (.expectedWord words (Reading.found (← Reading.here)))
  cases found with
  | some t => exact moves_of_ok hn hread hfound
  | none => exact moves_of_error hn hread hfound

theorem moves_acceptWords (sequence : List Text) (c : Cursor) :
    (acceptWords sequence).Moves c := by
  cases hbegins : Reading.beginsWith sequence c.ahead with
  | true =>
      have hlength := Reading.length_le_of_beginsWith hbegins
      have hread : Reading.acceptWords sequence c = (.ok true, c.skip sequence.length) := by
        rw [Reading.acceptWords, if_pos hbegins]
      exact moves_of_ok hlength hread
        ⟨_, crosses_take hlength, Reading.forall₂_of_beginsWith hbegins⟩
  | false =>
      have hread : Reading.acceptWords sequence c = (.ok false, c) := by
        rw [Reading.acceptWords, if_neg (by simp [hbegins])]
      refine moves_of_ok_stays hread ⟨rfl, ?_⟩
      rw [drop_pos]
      rintro crossed hsequence ⟨rest, hahead⟩
      have hyields := (Reading.Yields.acceptWords hsequence).skips hahead.symm
      cases hread.symm.trans hyields

/-- Without a name ahead the reading of one fails. -/
theorem exists_lacksName (h : ∀ t ∈ c.ahead.head?, ¬ t.isName) : ∃ n ≤ c.ahead.length, ∃ e,
    Reading.identifier c = (.error e, c.skip n) ∧ LacksName c.tokens c.pos (c.pos + n) := by
  cases hahead : c.ahead with
  | nil =>
      refine ⟨0, Nat.zero_le _, .refuse .unexpectedEnd, ?_, .inl ⟨rfl, ?_⟩⟩
      · rw [skip_zero]
        exact Reading.bind_of_error (Reading.advance_of_end hahead) _
      · rw [getElem?_pos, hahead, List.head?_nil]
  | cons t rest =>
      have hnot : ¬ t.isName := h t (by rw [hahead, List.head?_cons]; rfl)
      refine ⟨1, by simp, .refuse (.expectedIdentifier t.text), ?_,
        .inr ⟨t, crosses_head hahead, hnot⟩⟩
      rw [Reading.identifier, Reading.bind_of_ok (Reading.advance_of_ahead hahead)]
      exact congrFun (if_neg hnot) (c.skip 1)

theorem moves_identifier (c : Cursor) : identifier.Moves c := by
  by_cases hname : ∃ t ∈ c.ahead.head?, t.isName
  · obtain ⟨t, hhead, hname⟩ := hname
    obtain ⟨rest, hahead⟩ := List.head?_eq_some_iff.1 hhead
    exact moves_of_yields (.identifier hname) hahead ⟨t, crosses_head hahead, hname, rfl⟩
  · obtain ⟨n, hn, e, hread, hlacks⟩ := exists_lacksName fun t ht h => hname ⟨t, ht, h⟩
    exact moves_of_error hn hread hlacks

theorem moves_tableName (c : Cursor) : tableName.Moves c := by
  by_cases hname : ∃ t ∈ c.ahead.head?, t.isName
  · obtain ⟨t, hhead, hname⟩ := hname
    obtain ⟨rest, hahead⟩ := List.head?_eq_some_iff.1 hhead
    have hbehind : c.tokens[c.pos + 1]? = rest.head? := by
      rw [getElem?_pos_add, hahead, List.head?_eq_getElem?, List.getElem?_cons_succ]
    cases hpoint : rest.head?.any (·.isPunct ".") with
    | true =>
        have hidentifier : Reading.identifier c = (.ok t.value, c.skip 1) :=
          (Reading.Yields.identifier hname).skips hahead
        have hnext : (c.skip 1).nextIs (·.isPunct ".") = true := by
          rw [Reading.nextIs_eq, ahead_skip, hahead]
          exact hpoint
        have hread : Reading.tableName c = (.error (.refuse .qualifiedTable), c.skip 1) := by
          rw [Reading.tableName, Reading.bind_of_ok hidentifier]
          exact congrFun (if_pos hnext) (c.skip 1)
        refine moves_of_error (by simp [hahead]) hread
          (.inr ⟨t, crosses_head hahead, hname, ?_⟩)
        rw [hbehind]
        exact (Option.any_eq_true _ _).1 hpoint
    | false =>
        have hrest : ∀ u ∈ rest.head?, u.isPunct "." = false := by
          simpa [Option.any_eq_false] using hpoint
        refine moves_of_yields (.tableName hname hrest) hahead
          ⟨t, crosses_head hahead, hname, rfl, ?_⟩
        rwa [List.length_singleton, hbehind]
  · obtain ⟨n, hn, e, hread, hlacks⟩ := exists_lacksName fun t ht h => hname ⟨t, ht, h⟩
    exact moves_of_error hn (Reading.bind_of_error hread _) (.inl hlacks)

theorem moves_parenthesized (c : Cursor) : parenthesized.Moves c := by
  by_cases hgroup : ∃ inner group, IsGroup inner group ∧ group <+: c.ahead
  · obtain ⟨inner, group, hgroup, rest, hahead⟩ := hgroup
    exact moves_of_yields (.parenthesized hgroup) hahead.symm
      ⟨group, crosses_of_ahead hahead.symm, hgroup⟩
  · have hnot : ∀ inner group, IsGroup inner group → ¬ group <+: c.ahead :=
      fun inner group h hprefix => hgroup ⟨inner, group, h, hprefix⟩
    rcases hread : Reading.group c with ⟨group | group, c'⟩
    · obtain rfl := Reading.group_error hread
      refine moves_of_error_stays (Reading.bind_of_error hread _) ⟨rfl, ?_⟩
      rwa [drop_pos]
    · obtain ⟨inner, hinner, hahead⟩ := Reading.group_reads hread
      exact (hnot inner group hinner ⟨c'.ahead, hahead.symm⟩).elim

theorem moves_remaining (c : Cursor) : remaining.Moves c := by
  have hahead : c.ahead = c.ahead ++ [] := (List.append_nil _).symm
  refine moves_of_yields .remaining hahead ⟨crosses_of_ahead hahead, ?_⟩
  rw [Cursor.tokens, List.length_append, List.length_reverse, Cursor.pos]

theorem moves (call : Call) (c : Cursor) : call.Moves c := by
  cases call with
  | peek offset => exact moves_peek offset c
  | atEnd => exact moves_atEnd c
  | advance => exact moves_advance c
  | acceptWord words => exact moves_acceptWord words c
  | expectWord words => exact moves_expectWord words c
  | acceptWords sequence => exact moves_acceptWords sequence c
  | acceptPunct mark => exact moves_acceptPunct mark c
  | acceptOperator sign => exact moves_acceptOperator sign c
  | identifier => exact moves_identifier c
  | tableName => exact moves_tableName c
  | parenthesized => exact moves_parenthesized c
  | remaining => exact moves_remaining c

end Call

theorem tokens_after (calls : List Call) (c : Cursor) : (c.after calls).tokens = c.tokens := by
  induction calls generalizing c with
  | nil => rfl
  | cons call calls ih => rw [after, ih, (call.moves c).tokens]

/-- However many calls there are, they lead from a place among the tokens forward to another. -/
theorem within_after (calls : List Call) (h : c.pos ≤ c.tokens.length) :
    Within c.tokens c.pos (c.after calls).pos := by
  induction calls generalizing c with
  | nil => exact within_of_eq h rfl
  | cons call calls ih =>
      have hmoves := call.moves c
      obtain ⟨hforward, hlast⟩ := within_of_leads h hmoves.leads
      rw [← hmoves.tokens] at hlast ⊢
      obtain ⟨hmore, hend⟩ := ih hlast
      exact ⟨hforward.trans hmore, hend⟩

/-- Whatever was called on a cursor over some tokens, and however the calls came out, the tokens are
as they were, the place is among them, and no further calls lead back from it. Each further call
hands over exactly the tokens it goes past, or finds nothing and stays, or fails; it stays then too,
unless it passes one token in search of a name. -/
theorem calls_forwardOnly (tokens : List Token) (calls : List Call) :
    let c := (ofTokens tokens).after calls
    c.tokens = withoutSemicolon tokens ∧ c.pos ≤ c.tokens.length ∧
    (∀ more, c.pos ≤ (c.after more).pos) ∧
    ∀ call : Call, call.Leads c.tokens c.pos (call.reading c).2.pos (call.reading c).1 := by
  intro c
  have htokens : c.tokens = (ofTokens tokens).tokens := tokens_after calls _
  have hplace : Within c.tokens 0 c.pos := by
    rw [htokens]
    exact within_after calls (Nat.zero_le _)
  refine ⟨htokens, hplace.2, ?_, ?_⟩
  · intro more
    exact (within_after more hplace.2).1
  · intro call
    exact (call.moves c).leads

/-- A number is passed, though it is no name. -/
example : (Call.identifier.reading (ofTokens [⟨.number, "1", 0, 1⟩])).2.pos = 1 := rfl

end Cursor

end Restate
