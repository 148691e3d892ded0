import Restate.Proofs.Moved
import Restate.Schema.Statement

/-!
# Readings of moved tokens

What a reading yields if every offset of a statement moves: it goes on as before, and what it yields
moves along. Two readings look at offsets, and both only tell whether tokens touch or lie in order,
so they do not notice a move that is strictly increasing.
-/

namespace Restate

namespace Cursor

/-- The cursor among the moved tokens. -/
def moved (f : Nat → Nat) (c : Cursor) : Cursor :=
  ⟨c.passed.map (Token.moved f), c.ahead.map (Token.moved f)⟩

variable (f : Nat → Nat)

@[simp]
theorem moved_ahead (c : Cursor) : (c.moved f).ahead = c.ahead.map (Token.moved f) :=
  rfl

theorem moved_skip (n : Nat) (c : Cursor) : (c.moved f).skip n = (c.skip n).moved f := by
  simp [skip, moved, List.map_take, List.map_drop]

theorem moved_next? (c : Cursor) : (c.moved f).next? = c.next?.map (Token.moved f) :=
  List.head?_map

theorem moved_found (c : Cursor) : Reading.found (c.moved f) = Reading.found c := by
  simp [Reading.found, moved_next?, Function.comp_def]

variable {f} in
theorem moved_nextIs {p : Token → Bool} (hp : ∀ t, p (t.moved f) = p t) (c : Cursor) :
    (c.moved f).nextIs p = c.nextIs p := by
  simp [nextIs, moved_next?, Function.comp_def, hp]

theorem moved_atEnd (c : Cursor) : (c.moved f).atEnd = c.atEnd := by
  simp [atEnd, moved]

theorem withoutSemicolon_moved (tokens : List Token) :
    withoutSemicolon (tokens.map (Token.moved f)) =
      (withoutSemicolon tokens).map (Token.moved f) := by
  unfold withoutSemicolon
  rw [List.getLast?_map]
  cases tokens.getLast? with
  | none => rfl
  | some t =>
      simp only [Option.map_some, Token.moved_isPunct, ← List.map_dropLast]
      split
      · rfl
      · rfl

theorem moved_ofTokens (tokens : List Token) :
    ofTokens (tokens.map (Token.moved f)) = (ofTokens tokens).moved f := by
  rw [ofTokens, withoutSemicolon_moved]
  rfl

end Cursor

theorem beginsWith_moved (f : Nat → Nat) (words : List Text) (ts : List Token) :
    Reading.beginsWith words (ts.map (Token.moved f)) = Reading.beginsWith words ts := by
  induction words generalizing ts with
  | nil => cases ts <;> rfl
  | cons word words ih =>
      cases ts with
      | nil => rfl
      | cons t ts => simp [Reading.beginsWith, ih]

/-- A strictly increasing move opens no gap and closes none. -/
theorem renderTokens_moved {f : Nat → Nat} (hf : StrictMono f) (ts : List Token) :
    renderTokens (ts.map (Token.moved f)) = renderTokens ts := by
  fun_induction renderTokens ts with
  | case1 => rfl
  | case2 t => rfl
  | case3 t u rest ih =>
      have hgap : (t.moved f).stop < (u.moved f).start ↔ t.stop < u.start := hf.lt_iff_lt
      rw [List.map_cons] at ih
      rw [List.map_cons, List.map_cons, renderTokens, ih]
      simp only [hgap]
      rfl

def TypeSpan.moved (f : Nat → Nat) (span : TypeSpan) : TypeSpan :=
  { span with first := span.first.moved f, last := span.last.moved f }

def TableHead.moved (f : Nat → Nat) (head : TableHead) : TableHead :=
  { head with body := head.body.map (Token.moved f) }

namespace Reading

/-- Among moved tokens the second reading does what the first does among the tokens as they were,
and yields what is given for what the first yields. -/
def Moves {α β : Type} (f : Nat → Nat) (g : α → β) (x : Reading α) (y : Reading β) : Prop :=
  ∀ c : Cursor, y (c.moved f) = ((x c).1.map g, (x c).2.moved f)

/-- What the reading yields does not move. -/
def Stays {α : Type} (f : Nat → Nat) (x : Reading α) : Prop :=
  Moves f id x x

variable {α β γ δ : Type} {f : Nat → Nat} {g : α → β} {h : γ → δ}

namespace Moves

theorem bind {x : Reading α} {y : Reading β} {F : α → Reading γ} {G : β → Reading δ}
    (hx : Moves f g x y) (hF : ∀ a, Moves f h (F a) (G (g a))) : Moves f h (x >>= F) (y >>= G) := by
  intro c
  simp only [Bind.bind]
  rw [hx c]
  cases x c with
  | mk outcome middle =>
      cases outcome with
      | ok a => exact hF a middle
      | error e => rfl

theorem ite {p : Prop} [Decidable p] {x x' : Reading α} {y y' : Reading β} (hx : Moves f g x y)
    (hx' : Moves f g x' y') : Moves f g (if p then x else x') (if p then y else y') := by
  split
  · exact hx
  · exact hx'

/-- A choice by the next token. -/
theorem next {p : Token → Bool} (hp : ∀ t, p (t.moved f) = p t) {x x' : Reading α}
    {y y' : Reading β} (hx : Moves f g x y) (hx' : Moves f g x' y') :
    Moves f g (do if (← here).nextIs p then x else x')
      (do if (← here).nextIs p then y else y') := by
  intro c
  simp only [Bind.bind, here, Cursor.moved_nextIs hp]
  exact ite hx hx' c

theorem run {x : Reading α} {y : Reading β} (hx : Moves f g x y) (tokens : List Token) :
    y.run (tokens.map (Token.moved f)) = (x.run tokens).map g := by
  unfold Reading.run
  rw [Cursor.moved_ofTokens, hx]

end Moves

theorem Stays.run {x : Reading α} (hx : Stays f x) (tokens : List Token) :
    x.run (tokens.map (Token.moved f)) = x.run tokens := by
  rw [Moves.run hx, Except.map_id]
  rfl

theorem moves_pure (a : α) (b : β) (hb : g a = b) : Moves f g (pure a) (pure b) := by
  intro c
  subst hb
  rfl

theorem moves_fail (cause : Unsupported) : Moves f g (fail cause) (fail cause) :=
  fun _ => rfl

theorem stays_lift (outcome : Except Error α) : Stays f (lift outcome) := by
  intro c
  cases outcome with
  | ok a => rfl
  | error e => rfl

theorem moves_here : Moves f (Cursor.moved f) here here :=
  fun _ => rfl

theorem moves_fail_found (cause : Text → Unsupported) :
    Moves f g (do fail (cause (found (← here)))) (do fail (cause (found (← here)))) := by
  intro c
  simp only [Bind.bind, here, Cursor.moved_found]
  rfl

theorem moves_advance : Moves f (Token.moved f) advance advance := by
  intro c
  unfold advance
  rw [Cursor.moved_skip]
  cases hahead : c.ahead with
  | nil => simp [hahead, Except.map]
  | cons t ts => simp [hahead, Except.map]

theorem moves_accept {p : Token → Bool} (hp : ∀ t, p (t.moved f) = p t) :
    Moves f (Option.map (Token.moved f)) (accept p) (accept p) := by
  intro c
  unfold accept
  rw [Cursor.moved_skip]
  cases hahead : c.ahead with
  | nil => simp [hahead, Except.map]
  | cons t ts =>
      simp only [Cursor.moved_ahead, hahead, List.map_cons, hp]
      split
      · rfl
      · rfl

theorem moves_acceptWord (words : List Text) :
    Moves f (Option.map (Token.moved f)) (acceptWord words) (acceptWord words) :=
  moves_accept fun _ => rfl

theorem moves_acceptOperator (sign : Text) :
    Moves f (Option.map (Token.moved f)) (acceptOperator sign) (acceptOperator sign) :=
  moves_accept fun _ => rfl

theorem stays_acceptWords (sequence : List Text) : Stays f (acceptWords sequence) := by
  intro c
  unfold acceptWords
  rw [Cursor.moved_skip]
  simp only [Cursor.moved, beginsWith_moved]
  split
  · rfl
  · rfl

/-- A choice by whether a word comes next. -/
theorem Moves.word {words : List Text} {x x' : Reading α} {y y' : Reading β} (hx : Moves f g x y)
    (hx' : Moves f g x' y') :
    Moves f g (do if (← acceptWord words).isSome then x else x')
      (do if (← acceptWord words).isSome then y else y') := by
  refine .bind (moves_acceptWord words) fun found => ?_
  rw [Option.isSome_map]
  exact .ite hx hx'

theorem moves_expectWord (words : List Text) :
    Moves f (Token.moved f) (expectWord words) (expectWord words) := by
  refine .bind (moves_acceptWord words) fun found => ?_
  cases found with
  | none => exact moves_fail_found _
  | some t => exact moves_pure _ _ rfl

theorem stays_identifier : Stays f identifier :=
  .bind moves_advance fun _ => .ite (moves_pure _ _ rfl) (moves_fail _)

theorem stays_tableName : Stays f tableName :=
  .bind stays_identifier fun _ => .next (fun _ => rfl) (moves_fail _) (moves_pure _ _ rfl)

theorem moves_group : Moves f (List.map (Token.moved f)) group group := by
  intro c
  unfold Reading.group
  rw [Cursor.moved_found]
  simp only [Cursor.moved_skip]
  cases hahead : c.ahead with
  | nil => simp [hahead, Except.map]
  | cons opening rest =>
      simp only [Cursor.moved_ahead, hahead, List.map_cons, Token.moved_isPunct,
        closingFrom_moved]
      split
      · cases closingFrom 1 rest with
        | none => rfl
        | some n => simp [Except.map, List.map_take]
      · rfl

theorem moves_parenthesized : Moves f (List.map (Token.moved f)) parenthesized parenthesized :=
  .bind moves_group fun inner => moves_pure _ _ (by rw [List.map_dropLast, List.map_tail])

theorem stays_skipGroup : Stays f skipGroup :=
  .next (fun _ => rfl) (.bind moves_group fun _ => moves_pure _ _ rfl) (moves_pure _ _ rfl)

theorem moves_remaining : Moves f (List.map (Token.moved f)) remaining remaining := by
  intro c
  rw [remaining, Cursor.moved_skip, Cursor.moved_ahead, List.length_map]
  rfl

theorem collect_moved {step : Reading α} (hstep : Stays f step) (c : Cursor) :
    collect step (c.moved f) =
      ((collect step c).1, (collect step c).2.1, (collect step c).2.2.moved f) := by
  fun_induction collect step c with
  | case1 c hend =>
      rw [collect, if_pos (by rwa [Cursor.moved_atEnd])]
  | case2 c hend e c' hc =>
      rw [collect, if_neg (by rwa [Cursor.moved_atEnd]), hstep, hc]
      rfl
  | case3 c hend a c' hc hlt more result hmore ih =>
      have hlength : (c'.moved f).ahead.length < (c.moved f).ahead.length := by
        simpa using hlt
      rw [collect, if_neg (by rwa [Cursor.moved_atEnd]), hstep, hc]
      simp only [Except.map, if_pos hlength, ih, hmore, id]
  | case4 c hend a c' hc hlt =>
      have hlength : ¬ (c'.moved f).ahead.length < (c.moved f).ahead.length := by
        simpa using hlt
      rw [collect, if_neg (by rwa [Cursor.moved_atEnd]), hstep, hc]
      simp only [Except.map, if_neg hlength, id]

theorem stays_gather {step : Reading α} (hstep : Stays f step) : Stays f (gather step) := by
  intro c
  unfold gather
  rw [collect_moved hstep]
  rcases collect step c with ⟨collected, outcome, last⟩
  cases outcome with
  | ok u => rfl
  | error e => rfl

section Key

theorem stays_keyDirection (name : Text) : Stays f (keyPart.keyDirection name) := by
  refine .bind (moves_acceptWord _) fun direction => .bind moves_here fun c => ?_
  rw [Cursor.moved_next?]
  cases c.next? with
  | some t => exact moves_fail _
  | none => exact moves_pure _ _ (by cases direction <;> rfl)

theorem stays_keyPart : Stays f keyPart := by
  refine .bind stays_identifier fun name => .next (fun _ => rfl)
    (.bind moves_parenthesized fun inner => ?_) (stays_keyDirection name)
  match inner with
  | [] => exact moves_fail _
  | [length] => exact .ite (stays_keyDirection name) (moves_fail _)
  | _ :: _ :: _ => exact moves_fail _

theorem keyColumns_moved (tokens : List Token) :
    keyColumns (tokens.map (Token.moved f)) = keyColumns tokens := by
  unfold keyColumns
  rw [splitTopLevel_moved, List.mapM_map]
  exact congrArg (List.mapM · _) (funext stays_keyPart.run)

theorem stays_keyList : Stays f keyList := by
  refine .bind moves_parenthesized fun inner => ?_
  rw [keyColumns_moved]
  exact stays_lift _

theorem stays_skipIndexKind : Stays f skipIndexKind :=
  .word (.bind moves_advance fun _ => moves_pure _ _ rfl) (moves_pure _ _ rfl)

theorem stays_skipSetting : Stays f skipSetting :=
  .bind (moves_acceptOperator _) fun _ => .bind moves_advance fun _ => moves_pure _ _ rfl

theorem stays_skipIndexOption : Stays f skipIndexOption :=
  .bind (moves_expectWord _) fun _ => .ite (moves_pure _ _ rfl) <|
    .ite (.bind (moves_expectWord _) fun _ => stays_skipSetting) stays_skipSetting

theorem stays_skipIndexOptions : Stays f skipIndexOptions :=
  .bind (stays_gather stays_skipIndexOption) fun _ => moves_pure _ _ rfl

theorem stays_keyName : Stays f keyName? := by
  refine .bind moves_here fun c => ?_
  rw [Cursor.moved_next?]
  cases c.next? with
  | some t =>
      exact .ite (moves_pure _ _ rfl) (.bind stays_identifier fun _ => moves_pure _ _ rfl)
  | none => exact moves_pure _ _ rfl

theorem stays_key (table : Text) (unique : Bool) : Stays f (key table unique) :=
  .bind stays_keyName fun _ => .bind stays_skipIndexKind fun _ =>
    .bind stays_keyList fun _ => .bind stays_skipIndexOptions fun _ => moves_pure _ _ rfl

end Key

section Index

theorem stays_alterTable : Stays f alterTable :=
  .bind (moves_expectWord _) fun _ => .bind (moves_expectWord _) fun _ => stays_tableName

theorem stays_addedKey : Stays f addedKey :=
  .bind stays_alterTable fun table => .bind (moves_expectWord _) fun _ =>
    .word (.bind (moves_acceptWord _) fun _ => stays_key table true)
      (.bind (moves_expectWord _) fun _ => stays_key table false)

theorem stays_createdIndex : Stays f createdIndex := by
  refine .bind (moves_expectWord _) fun _ => .bind (moves_acceptWord _) fun unique =>
    .bind (moves_expectWord _) fun _ => .bind stays_identifier fun _ =>
    .bind stays_skipIndexKind fun _ => .bind (moves_expectWord _) fun _ =>
    .bind stays_tableName fun _ => .bind stays_keyList fun _ =>
    .bind stays_skipIndexOptions fun _ => moves_pure _ _ ?_
  rw [Option.isSome_map]
  rfl

theorem stays_droppedIndex : Stays f droppedIndex := by
  refine .next (fun _ => rfl)
    (.bind stays_alterTable fun _ => .bind (moves_expectWord _) fun _ =>
      .bind (moves_expectWord _) fun _ => .bind stays_identifier fun _ =>
      .bind (moves_pure (g := id) _ _ rfl) fun dropped => .bind moves_here fun c => ?_)
    (.bind (moves_expectWord _) fun _ => .bind (moves_expectWord _) fun _ =>
      .bind stays_identifier fun _ => .bind (moves_expectWord _) fun _ =>
      .bind stays_tableName fun _ =>
      .bind (moves_pure (g := id) _ _ rfl) fun dropped => .bind moves_here fun c => ?_)
  -- either way nothing may stand behind the name
  all_goals
    rw [Cursor.moved_next?]
    cases c.next? with
    | some t => exact moves_fail _
    | none => exact moves_pure _ _ rfl

end Index

section Column

theorem moves_columnType (types : Fields Text) :
    Moves f (TypeSpan.moved f) (columnType types) (columnType types) := by
  have hmodifiers : Stays f columnType.skipModifiers := by
    intro c
    rw [columnType.skipModifiers, Cursor.moved_skip, Cursor.moved_ahead, List.takeWhile_map,
      List.length_map]
    rfl
  have hlast : ∀ first : Token,
      Moves f (Token.moved f) (lastPassed first) (lastPassed (first.moved f)) := by
    intro first
    refine .bind moves_here fun c => moves_pure _ _ ?_
    cases hpassed : c.passed <;> simp [Cursor.moved, hpassed]
  have hrest : ∀ (first : Token) (base : Text), Moves f (TypeSpan.moved f) (do
      skipGroup
      columnType.skipModifiers
      let target ← lift (mapType types base)
      return ⟨target, first, ← lastPassed first⟩) (do
      skipGroup
      columnType.skipModifiers
      let target ← lift (mapType types base)
      return ⟨target, first.moved f, ← lastPassed (first.moved f)⟩) :=
    fun first base => .bind stays_skipGroup fun _ => .bind hmodifiers fun _ =>
      .bind (stays_lift _) fun _ => .bind (hlast first) fun _ => moves_pure _ _ rfl
  refine .bind moves_advance fun first => .ite (moves_fail _) <|
    .ite (.bind (moves_acceptWord _) fun precise => ?_)
      (.bind (moves_pure _ _ rfl) fun _ => hrest _ _)
  cases precise with
  | none => exact hrest _ _
  | some t => exact hrest _ _

theorem stays_acceptCharacterSet : Stays f acceptCharacterSet := by
  refine .bind (stays_acceptWords _) fun _ => .ite (moves_pure _ _ rfl) <|
    .bind (moves_acceptWord _) fun _ => moves_pure _ _ ?_
  rw [Option.isSome_map]
  rfl

theorem stays_skipUpdateRule : Stays f skipUpdateRule :=
  .bind moves_advance fun _ => stays_skipGroup

theorem stays_introducedDefault (hf : StrictMono f) (t : Token) :
    Moves f id (introducedDefault t) (introducedDefault (t.moved f)) := by
  refine .bind moves_here fun c => ?_
  rw [Cursor.moved_next?]
  cases c.next? with
  | none => exact moves_fail _
  | some literal =>
      simp only [Option.map_some, Token.moved_isWord, Token.moved_kind,
        Token.moved_touches hf.injective]
      refine .ite (.bind moves_advance fun _ => .ite ?_ (moves_pure _ _ rfl)) (moves_fail _)
      simp only [Token.moved_value]
      cases bitNumeral literal.value with
      | ok text => exact moves_pure _ _ rfl
      | error fault => exact stays_lift _

theorem stays_defaultValue (hf : StrictMono f) : Stays f defaultValue := by
  refine .next (fun _ => rfl)
    (.bind moves_group fun inner => moves_pure _ _ (renderTokens_moved hf inner).symm)
    (.bind moves_advance fun t => .ite (moves_pure _ _ rfl) <| .ite (moves_pure _ _ rfl) <|
      .ite (.bind moves_advance fun _ => .ite (moves_pure _ _ rfl) (moves_fail _)) <|
      .ite (moves_pure _ _ rfl) ?_)
  have htime : currentTime? (t.moved f) = currentTime? t := rfl
  rw [htime]
  cases currentTime? t with
  | some name => exact .bind stays_skipGroup fun _ => moves_pure _ _ rfl
  | none => exact stays_introducedDefault hf t

theorem stays_columnClause (hf : StrictMono f) (column : Text) : Stays f (columnClause column) :=
  .bind (stays_acceptWords _) fun _ => .ite (moves_pure _ _ rfl) <|
    .word (moves_pure _ _ rfl) <|
    .word (.bind (stays_defaultValue hf) fun _ => moves_pure _ _ rfl) <|
    .word (moves_pure _ _ rfl) <|
    .word (.bind (moves_acceptWord _) fun _ => moves_pure _ _ rfl) <|
    .word (moves_pure _ _ rfl) <|
    .word (.bind (moves_acceptWord _) fun _ => moves_pure _ _ rfl) <|
    .word (.bind moves_advance fun _ => moves_pure _ _ rfl) <|
    .bind stays_acceptCharacterSet fun _ =>
    .ite (.bind stays_skipSetting fun _ => moves_pure _ _ rfl) <|
    .bind (stays_acceptWords _) fun _ =>
    .ite (.bind stays_skipUpdateRule fun _ => moves_pure _ _ rfl) <|
    moves_fail_found fun found => .columnAttribute found column

/-- A column that is cut out of no text has no type as it was written. -/
theorem stays_column (hf : StrictMono f) (types : Fields Text) : Stays f (column types []) := by
  refine .bind stays_identifier fun name => .bind (moves_columnType types) fun span =>
    .bind (stays_gather (stays_columnClause hf name)) fun clauses => moves_pure _ _ ?_
  simp [TypeSpan.moved]

end Column

section Table

theorem stays_constraintName : Stays f constraintName := by
  have hkind : Stays f (do
      if !(← here).nextIs (·.isWord constraintKinds) then fail .constraintDefinition) := by
    refine .bind moves_here fun c => ?_
    rw [Cursor.moved_nextIs fun _ => rfl]
    exact .ite (moves_fail _) (moves_pure _ _ rfl)
  exact .next (fun _ => rfl) (.bind stays_identifier fun _ => hkind) hkind

theorem stays_columnDefinition (hf : StrictMono f) (types : Fields Text) :
    Stays f (columnDefinition types []) := by
  refine .bind moves_here fun c => ?_
  rw [Cursor.moved_next?]
  cases c.next? with
  | none => exact stays_lift _
  | some t =>
      exact .ite (moves_pure _ _ rfl) <| .ite (moves_fail _) <|
        .bind (stays_column hf types) fun _ => moves_pure _ _ rfl

theorem stays_definition (hf : StrictMono f) (types : Fields Text) (table : Text) :
    Stays f (definition types [] table) := by
  refine .word (.bind stays_constraintName fun _ => ?_) ?_
  -- the constraint may be named or not
  all_goals
    exact .word (.bind (moves_expectWord _) fun _ => .bind stays_skipIndexKind fun _ =>
        .bind stays_keyList fun _ => .bind stays_skipIndexOptions fun _ => moves_pure _ _ rfl) <|
      .word (.bind (moves_acceptWord _) fun _ => .bind (stays_key table true) fun _ =>
        moves_pure _ _ rfl) <|
      .word (.bind (stays_key table false) fun _ => moves_pure _ _ rfl)
        (stays_columnDefinition hf types)

theorem moves_tableHead : Moves f (TableHead.moved f) tableHead tableHead := by
  refine .bind (moves_expectWord _) fun _ => .bind (moves_acceptWord _) fun temporary =>
    .bind (moves_expectWord _) fun _ => .bind (stays_acceptWords _) fun ifNotExists =>
    .bind stays_tableName fun name => .next (fun _ => rfl) (moves_fail_found _) <|
    .bind moves_parenthesized fun body => .bind moves_remaining fun options => ?_
  have hfind : (options.map (Token.moved f)).find? (·.isWord tableSources) =
      (options.find? (·.isWord tableSources)).map (Token.moved f) :=
    List.find?_map
  rw [hfind]
  cases options.find? (·.isWord tableSources) with
  | some option => exact moves_fail _
  | none => exact moves_pure _ _ (by simp [TableHead.moved])

end Table

end Reading

end Restate
