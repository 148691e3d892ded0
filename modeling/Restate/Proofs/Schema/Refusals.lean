import Restate.Proofs.Refusal
import Restate.Proofs.Schema.Reading

/-!
# Readings that only refuse

What stops a reading is, with two exceptions, a construct that it refuses. A reading built from
others only refuses if they do (`Reading.Refuses.bind`), so each law here follows the reading it is
about.
-/

namespace Restate

namespace Reading

variable {α β : Type} {x y : Reading α} {c c' : Cursor}

theorem bind_error {f : α → Reading β} {e : Error} (h : (x >>= f) c = (.error e, c')) :
    x c = (.error e, c') ∨ ∃ a middle, x c = (.ok a, middle) ∧ f a middle = (.error e, c') := by
  cases hx : x c with
  | mk outcome middle =>
      simp only [bind, hx] at h
      cases outcome with
      | ok a => exact .inr ⟨a, middle, rfl, h⟩
      | error e' =>
          cases h
          exact .inl rfl

theorem refusing_bind {f : α → Reading β} (hx : Refusing (x c).1)
    (hf : ∀ a c', x c = (.ok a, c') → Refusing (f a c').1) : Refusing ((x >>= f) c).1 := by
  intro e he
  rcases bind_error (Prod.ext he rfl) with herror | ⟨a, middle, ha, herror⟩
  · exact hx e (congrArg Prod.fst herror)
  · exact hf a middle ha e (congrArg Prod.fst herror)

/-- A repetition of the step comes from one place to another. -/
inductive Reaches {α : Type} (step : Reading α) : Cursor → Cursor → Prop where
  | here {c : Cursor} : Reaches step c c
  | step {c middle c' : Cursor} {a : α} : step c = (.ok a, middle) →
      middle.ahead.length < c.ahead.length → Reaches step middle c' → Reaches step c c'

/-- A repetition that comes to no step that fails otherwise fails by a refusal only. -/
theorem collect_refusing {step : Reading α}
    (h : ∀ last, Reaches step c last → Refusing (step last).1) :
    Refusing (collect step c).2.1 := by
  fun_induction collect step c with
  | case1 => exact .ok _
  | case2 c hend e c' hstep =>
      have hc := h c .here
      rw [hstep] at hc
      rintro _ ⟨⟩
      exact hc e rfl
  | case3 c hend a middle hstep hlt more result hmore ih =>
      rw [hmore] at ih
      exact ih fun last hlast => h last (.step hstep hlt hlast)
  | case4 => exact .ok _

theorem gather_refusing {step : Reading α}
    (h : ∀ last, Reaches step c last → Refusing (step last).1) :
    Refusing (gather step c).1 := by
  have hcollect := collect_refusing h
  unfold gather
  split
  · exact .ok _
  · next heq =>
      rw [heq] at hcollect
      rintro _ ⟨⟩
      exact hcollect _ rfl

/-- Wherever the reading begins, it fails by refusing a construct only. -/
def Refuses (x : Reading α) : Prop :=
  ∀ c, Refusing (x c).1

namespace Refuses

theorem bind {f : α → Reading β} (hx : x.Refuses) (hf : ∀ a, (f a).Refuses) :
    (x >>= f).Refuses :=
  fun c => refusing_bind (hx c) fun a c' _ => hf a c'

theorem ite {p : Prop} [Decidable p] (hx : x.Refuses) (hy : y.Refuses) :
    (if p then x else y).Refuses := by
  split
  · exact hx
  · exact hy

theorem run (h : x.Refuses) (tokens : List Token) : Refusing (x.run tokens) :=
  h (Cursor.ofTokens tokens)

theorem gather (h : x.Refuses) : (gather x).Refuses :=
  fun _ => gather_refusing fun last _ => h last

end Refuses

theorem refuses_pure (a : α) : (pure a : Reading α).Refuses :=
  fun _ => .ok a

theorem refuses_here : here.Refuses :=
  fun c => .ok c

theorem refuses_fail (cause : Unsupported) : (fail cause : Reading α).Refuses :=
  fun _ => .refuse cause

theorem refuses_lift {outcome : Except Error α} (h : Refusing outcome) : (lift outcome).Refuses :=
  fun _ => h

theorem refuses_advance : advance.Refuses := by
  intro c
  unfold advance
  split
  · exact .ok _
  · exact .refuse _

theorem refuses_accept (p : Token → Bool) : (accept p).Refuses := by
  intro c
  unfold accept
  split
  · split
    · exact .ok _
    · exact .ok _
  · exact .ok _

theorem refuses_acceptWord (words : List Text) : (acceptWord words).Refuses :=
  refuses_accept _

theorem refuses_acceptWords (sequence : List Text) : (acceptWords sequence).Refuses := by
  intro c
  unfold acceptWords
  split
  · exact .ok _
  · exact .ok _

theorem refuses_expectWord (words : List Text) : (expectWord words).Refuses := by
  refine .bind (refuses_acceptWord words) fun found => ?_
  split
  · exact refuses_pure _
  · exact .bind refuses_here fun _ => refuses_fail _

theorem refuses_identifier : identifier.Refuses :=
  .bind refuses_advance fun _ => .ite (refuses_pure _) (refuses_fail _)

theorem refuses_tableName : tableName.Refuses :=
  .bind refuses_identifier fun _ => .bind refuses_here fun _ =>
    .ite (refuses_fail _) (refuses_pure _)

theorem refuses_group : Reading.group.Refuses := by
  intro c
  unfold Reading.group
  split
  · split
    · split
      · exact .ok _
      · exact .refuse _
    · exact .refuse _
  · exact .refuse _

theorem refuses_parenthesized : parenthesized.Refuses :=
  .bind refuses_group fun _ => refuses_pure _

theorem refuses_skipGroup : skipGroup.Refuses :=
  .bind refuses_here fun _ =>
    .ite (.bind refuses_group fun _ => refuses_pure _) (refuses_pure _)

theorem refuses_remaining : remaining.Refuses :=
  fun c => .ok c.ahead

section Key

theorem refuses_keyDirection (name : Text) : (keyPart.keyDirection name).Refuses := by
  refine .bind (refuses_acceptWord _) fun direction => .bind refuses_here fun c => ?_
  split
  · exact refuses_fail _
  · exact refuses_pure _

theorem refuses_keyPart : keyPart.Refuses := by
  refine .bind refuses_identifier fun name => .bind refuses_here fun c =>
    .ite (.bind refuses_parenthesized fun inner => ?_) (refuses_keyDirection name)
  split
  · exact .ite (refuses_keyDirection name) (refuses_fail _)
  · exact refuses_fail _

theorem refuses_keyList : keyList.Refuses :=
  .bind refuses_parenthesized fun _ => refuses_lift (.mapM (fun part => refuses_keyPart.run part) _)

theorem refuses_skipIndexKind : skipIndexKind.Refuses :=
  .bind (refuses_acceptWord _) fun _ =>
    .ite (.bind refuses_advance fun _ => refuses_pure _) (refuses_pure _)

theorem refuses_skipSetting : skipSetting.Refuses :=
  .bind (refuses_accept _) fun _ => .bind refuses_advance fun _ => refuses_pure _

theorem refuses_skipIndexOption : skipIndexOption.Refuses :=
  .bind (refuses_expectWord _) fun _ => .ite (refuses_pure _) <|
    .ite (.bind (refuses_expectWord _) fun _ => refuses_skipSetting) refuses_skipSetting

theorem refuses_skipIndexOptions : skipIndexOptions.Refuses :=
  .bind refuses_skipIndexOption.gather fun _ => refuses_pure _

theorem refuses_keyName : keyName?.Refuses := by
  refine .bind refuses_here fun c => ?_
  split
  · exact .ite (refuses_pure _) (.bind refuses_identifier fun _ => refuses_pure _)
  · exact refuses_pure _

theorem refuses_key (table : Text) (unique : Bool) : (key table unique).Refuses :=
  .bind refuses_keyName fun _ => .bind refuses_skipIndexKind fun _ =>
    .bind refuses_keyList fun _ => .bind refuses_skipIndexOptions fun _ => refuses_pure _

end Key

section Column

theorem refuses_columnType (types : Fields Text) : (columnType types).Refuses := by
  have hmodifiers : Refuses columnType.skipModifiers := fun _ => .ok ()
  have htype : ∀ base, (lift (mapType types base)).Refuses := by
    intro base
    apply refuses_lift
    unfold mapType
    split
    · exact .ok _
    · exact .refuse _
  have hrest : ∀ first : Token, ∀ base, (do
      skipGroup
      columnType.skipModifiers
      let target ← lift (mapType types base)
      return ⟨target, first, ← lastPassed first⟩ : Reading TypeSpan).Refuses :=
    fun first base => .bind refuses_skipGroup fun _ => .bind hmodifiers fun _ =>
      .bind (htype base) fun _ =>
        .bind (.bind refuses_here fun _ => refuses_pure _) fun _ => refuses_pure _
  exact .bind refuses_advance fun first => .ite (refuses_fail _) <|
    .ite (.bind (refuses_acceptWord _) fun _ => hrest _ _)
      (.bind (refuses_pure _) fun _ => hrest _ _)

theorem refuses_acceptCharacterSet : acceptCharacterSet.Refuses :=
  .bind (refuses_acceptWords _) fun _ =>
    .ite (refuses_pure _) (.bind (refuses_acceptWord _) fun _ => refuses_pure _)

theorem refuses_skipUpdateRule : skipUpdateRule.Refuses :=
  .bind refuses_advance fun _ => refuses_skipGroup

end Column

section Statement

theorem refuses_alterTable : alterTable.Refuses :=
  .bind (refuses_expectWord _) fun _ => .bind (refuses_expectWord _) fun _ => refuses_tableName

theorem refuses_addedHead (types : Fields Text) : (addedHead types).Refuses :=
  .bind refuses_alterTable fun _ => .bind (refuses_expectWord _) fun _ =>
    .bind (refuses_acceptWord _) fun _ => .bind refuses_identifier fun _ =>
      .bind (refuses_columnType types) fun _ => refuses_pure _

theorem refuses_removalSince (before : Cursor) : (removalSince before).Refuses :=
  .bind refuses_here fun _ => refuses_pure _

theorem refuses_addedPart : addedPart.Refuses := by
  have hremoved : ∀ (before : Cursor) (f : Edit → AddedPart),
      (do return f (← removalSince before) : Reading AddedPart).Refuses :=
    fun before f => .bind (refuses_removalSince before) fun _ => refuses_pure _
  exact .bind refuses_here fun before => .bind refuses_acceptCharacterSet fun _ =>
    .ite (.bind refuses_skipSetting fun _ => hremoved before _) <|
    .bind (refuses_acceptWord _) fun _ => .ite (hremoved before _) <|
    .bind (refuses_acceptWord _) fun _ =>
    .ite (.bind refuses_advance fun _ => hremoved before _) <|
    .bind (refuses_acceptWords _) fun _ =>
    .ite (.bind refuses_skipUpdateRule fun _ => hremoved before _) <|
    .bind (refuses_acceptWord _) fun _ => .ite (hremoved before _) <|
    .bind refuses_advance fun _ => .ite (refuses_pure _) (refuses_pure _)

theorem refuses_addedKey : addedKey.Refuses :=
  .bind refuses_alterTable fun table => .bind (refuses_expectWord _) fun _ =>
    .bind (refuses_acceptWord _) fun _ =>
      .ite (.bind (refuses_acceptWord _) fun _ => refuses_key table true)
        (.bind (refuses_expectWord _) fun _ => refuses_key table false)

theorem refuses_createdIndex : createdIndex.Refuses :=
  .bind (refuses_expectWord _) fun _ => .bind (refuses_acceptWord _) fun _ =>
    .bind (refuses_expectWord _) fun _ => .bind refuses_identifier fun _ =>
    .bind refuses_skipIndexKind fun _ => .bind (refuses_expectWord _) fun _ =>
    .bind refuses_tableName fun _ => .bind refuses_keyList fun _ =>
    .bind refuses_skipIndexOptions fun _ => refuses_pure _

theorem refuses_droppedIndex : droppedIndex.Refuses := by
  refine .bind refuses_here fun _ => .ite
    (.bind refuses_alterTable fun _ => .bind (refuses_expectWord _) fun _ =>
      .bind (refuses_expectWord _) fun _ => .bind refuses_identifier fun _ =>
      .bind (refuses_pure _) fun dropped => .bind refuses_here fun c => ?_)
    (.bind (refuses_expectWord _) fun _ => .bind (refuses_expectWord _) fun _ =>
      .bind refuses_identifier fun _ => .bind (refuses_expectWord _) fun _ =>
      .bind refuses_tableName fun _ =>
      .bind (refuses_pure _) fun dropped => .bind refuses_here fun c => ?_)
  -- either way nothing may stand behind the name
  all_goals
    split
    · exact refuses_fail _
    · exact refuses_pure _

theorem refuses_tableHead : tableHead.Refuses := by
  refine .bind (refuses_expectWord _) fun _ => .bind (refuses_acceptWord _) fun temporary =>
    .bind (refuses_expectWord _) fun _ => .bind (refuses_acceptWords _) fun ifNotExists =>
    .bind refuses_tableName fun name => .bind refuses_here fun c =>
    .ite (.bind refuses_here fun _ => refuses_fail _) <|
    .bind refuses_parenthesized fun body => .bind refuses_remaining fun options => ?_
  split
  · exact refuses_fail _
  · exact refuses_pure _

theorem refuses_constraintName : constraintName.Refuses := by
  have hkind : (do
      if !(← here).nextIs (·.isWord constraintKinds) then fail .constraintDefinition :
        Reading Unit).Refuses :=
    .bind refuses_here fun _ => .ite (refuses_fail _) (refuses_pure _)
  exact .bind refuses_here fun _ =>
    .ite (.bind refuses_identifier fun _ => hkind) hkind

end Statement

end Reading

end Restate
