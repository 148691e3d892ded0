import Restate.Schema.Statement

/-!
# Laws of readings

What a reading that succeeds has passed. Each law says how many tokens lie between the cursor before
and the cursor after, and what is known of them; a reading built from others is taken apart at its
binds (`Reading.bind_ok`).
-/

namespace Restate

namespace Cursor

theorem skip_skip (m n : Nat) (c : Cursor) : (c.skip m).skip n = c.skip (m + n) := by
  simp [skip, List.take_add, List.reverse_append]

@[simp]
theorem skip_zero (c : Cursor) : c.skip 0 = c := by
  simp [skip]

@[simp]
theorem ahead_skip (n : Nat) (c : Cursor) : (c.skip n).ahead = c.ahead.drop n :=
  rfl

/-- Where the token passed last stops. -/
def reached (c : Cursor) : Nat :=
  (c.passed.head?.map Token.stop).getD 0

end Cursor

/-- A name, quoted or bare. -/
def Token.isName (t : Token) : Prop :=
  t.kind = .quotedIdentifier ∨ t.kind.isBare = true

theorem closingFrom_lt {depth : Int} {ts : List Token} {n : Nat}
    (h : closingFrom depth ts = some n) : n < ts.length := by
  fun_induction closingFrom depth ts generalizing n with
  | case1 => simp at h
  | case2 depth t ts hopen ih =>
      obtain ⟨m, hm, rfl⟩ := Option.map_eq_some_iff.1 h
      simpa using ih hm
  | case3 t ts hopen hclose =>
      obtain rfl : 0 = n := by simpa using h
      simp
  | case4 depth t ts hopen hclose hdepth ih =>
      obtain ⟨m, hm, rfl⟩ := Option.map_eq_some_iff.1 h
      simpa using ih hm
  | case5 depth t ts hopen hclose ih =>
      obtain ⟨m, hm, rfl⟩ := Option.map_eq_some_iff.1 h
      simpa using ih hm

/-- How many tokens a parenthesis and all in it take, if one opens at the first token. -/
def groupLength : List Token → Nat
  | opening :: rest =>
    if opening.isPunct "(" then ((closingFrom 1 rest).map (· + 2)).getD 0 else 0
  | [] => 0

/-- How many modifiers of a type come first. -/
def modifiersLength (ts : List Token) : Nat :=
  (ts.takeWhile fun t => t.isWord Reading.typeModifiers).length

theorem modifiersLength_le (ts : List Token) : modifiersLength ts ≤ ts.length :=
  (List.takeWhile_prefix _).length_le

/-- How many tokens a value takes, with an equals sign that may stand before it. -/
def settingLength (ts : List Token) : Nat :=
  if ts.head?.any (·.isOperator "=") then 2 else 1

theorem groupLength_le (ts : List Token) : groupLength ts ≤ ts.length := by
  cases ts with
  | nil => simp [groupLength]
  | cons opening rest =>
      rw [groupLength]
      split
      · cases hclose : closingFrom 1 rest with
        | none => simp
        | some n =>
            have := closingFrom_lt hclose
            simp only [Option.map_some, Option.getD_some, List.length_cons]
            omega
      · simp

namespace Reading

variable {α β : Type} {c c' : Cursor}

theorem bind_ok {x : Reading α} {f : α → Reading β} {b : β} (h : (x >>= f) c = (.ok b, c')) :
    ∃ a middle, x c = (.ok a, middle) ∧ f a middle = (.ok b, c') := by
  cases hx : x c with
  | mk outcome middle =>
      cases outcome with
      | ok a =>
          refine ⟨a, middle, rfl, ?_⟩
          simpa only [bind, hx] using h
      | error e => simp [bind, hx] at h

theorem pure_ok {a b : α} (h : (pure a : Reading α) c = (.ok b, c')) : b = a ∧ c = c' := by
  cases h
  exact ⟨rfl, rfl⟩

theorem here_ok {d : Cursor} (h : here c = (.ok d, c')) : c = d ∧ c = c' := by
  cases h
  exact ⟨rfl, rfl⟩

theorem lift_ok {outcome : Except Error α} {a : α} (h : lift outcome c = (.ok a, c')) :
    outcome = .ok a ∧ c = c' := by
  cases h
  exact ⟨rfl, rfl⟩

theorem fail_not_ok {cause : Unsupported} {a : α} (h : fail cause c = (.ok a, c')) : False := by
  simp [fail] at h

theorem advance_ok {t : Token} (h : advance c = (.ok t, c')) :
    c.ahead.head? = some t ∧ c' = c.skip 1 := by
  unfold advance at h
  split at h
  · next hahead =>
      cases h
      simp [hahead]
  · simp at h

theorem accept_ok {p : Token → Bool} {o : Option Token} (h : accept p c = (.ok o, c')) :
    (∃ t, c.ahead.head? = some t ∧ p t = true ∧ o = some t ∧ c' = c.skip 1) ∨
      (∀ t, c.ahead.head? = some t → p t = false) ∧ o = none ∧ c' = c := by
  unfold accept at h
  split at h
  · next t rest hahead =>
      split at h
      · next hp =>
          cases h
          exact .inl ⟨t, by simp [hahead], hp, rfl, rfl⟩
      · next hp =>
          cases h
          refine .inr ⟨?_, rfl, rfl⟩
          intro u hu
          obtain rfl : t = u := by simpa [hahead] using hu
          simpa using hp
  · next hahead =>
      cases h
      exact .inr ⟨by simp [hahead], rfl, rfl⟩

theorem acceptWords_ok {sequence : List Text} {b : Bool}
    (h : acceptWords sequence c = (.ok b, c')) :
    b = beginsWith sequence c.ahead ∧ c' = c.skip (if b then sequence.length else 0) := by
  unfold acceptWords at h
  split at h
  · next hb =>
      cases h
      simp [hb]
  · next hb =>
      cases h
      simp [hb]

theorem expectWord_ok {words : List Text} {t : Token} (h : expectWord words c = (.ok t, c')) :
    c.ahead.head? = some t ∧ t.isWord words = true ∧ c' = c.skip 1 := by
  obtain ⟨o, middle, ho, hrest⟩ := bind_ok h
  rcases accept_ok ho with ⟨u, hu, hword, rfl, rfl⟩ | ⟨-, rfl, -⟩
  · obtain ⟨rfl, rfl⟩ := pure_ok hrest
    exact ⟨hu, hword, rfl⟩
  · obtain ⟨_, _, _, hfail⟩ := bind_ok hrest
    exact (fail_not_ok hfail).elim

theorem identifier_ok {name : Text} (h : identifier c = (.ok name, c')) :
    ∃ t, c.ahead.head? = some t ∧ t.isName ∧ name = t.value ∧ c' = c.skip 1 := by
  obtain ⟨t, middle, ht, hrest⟩ := bind_ok h
  obtain ⟨hhead, rfl⟩ := advance_ok ht
  split at hrest
  · next hkind =>
      obtain ⟨rfl, rfl⟩ := pure_ok hrest
      exact ⟨t, hhead, hkind, rfl, rfl⟩
  · exact (fail_not_ok hrest).elim

theorem tableName_ok {name : Text} (h : tableName c = (.ok name, c')) :
    identifier c = (.ok name, c') := by
  obtain ⟨_, middle, hname, hrest⟩ := bind_ok h
  obtain ⟨_, _, hhere, hrest⟩ := bind_ok hrest
  obtain ⟨rfl, rfl⟩ := here_ok hhere
  split at hrest
  · exact (fail_not_ok hrest).elim
  · obtain ⟨rfl, rfl⟩ := pure_ok hrest
    exact hname

theorem group_ok {ts : List Token} (h : group c = (.ok ts, c')) :
    c' = c.skip (groupLength c.ahead) := by
  unfold group at h
  split at h
  · next opening rest hahead =>
      split at h
      · next hopen =>
          split at h
          · next n hclose =>
              cases h
              simp only [groupLength, hahead, hopen, if_true, hclose, Option.map_some,
                Option.getD_some]
          · simp at h
      · simp at h
  · simp at h

theorem skipGroup_ok {u : Unit} (h : skipGroup c = (.ok u, c')) :
    c' = c.skip (groupLength c.ahead) := by
  obtain ⟨d, middle, hd, hrest⟩ := bind_ok h
  obtain ⟨rfl, rfl⟩ := here_ok hd
  split at hrest
  · obtain ⟨_, _, hgroup, hrest⟩ := bind_ok hrest
    obtain ⟨-, rfl⟩ := pure_ok hrest
    exact group_ok hgroup
  · next hopen =>
      obtain ⟨-, rfl⟩ := pure_ok hrest
      cases hahead : c.ahead with
      | nil => simp [groupLength]
      | cons t rest =>
          have : t.isPunct "(" = false := by
            simpa [Cursor.nextIs, Cursor.next?, hahead] using hopen
          rw [groupLength, this]
          simp

theorem skipModifiers_ok {u : Unit} (h : columnType.skipModifiers c = (.ok u, c')) :
    c' = c.skip (modifiersLength c.ahead) :=
  (congrArg Prod.snd h).symm

/-- A repetition that succeeds and has a token before it made its step, which passed something. -/
theorem collect_cons_ok {step : Reading α} {collected : List α} {t : Token} {rest : List Token}
    (hahead : c.ahead = t :: rest) (h : collect step c = (collected, .ok (), c')) :
    ∃ a middle more, step c = (.ok a, middle) ∧ collected = a :: more ∧
      (middle.ahead.length < c.ahead.length → collect step middle = (more, .ok (), c')) := by
  have hend : c.atEnd = false := by simp [Cursor.atEnd, hahead]
  rw [collect, hend] at h
  simp only [Bool.false_eq_true, if_false] at h
  split at h
  · simp at h
  · next a middle hstep =>
      split at h
      · next hlt =>
          obtain ⟨rfl, hmore⟩ := Prod.mk.inj h
          exact ⟨a, middle, _, hstep, rfl, fun _ => Prod.ext rfl hmore⟩
      · next hlt =>
          obtain ⟨rfl, -⟩ := Prod.mk.inj h
          exact ⟨a, middle, [], hstep, rfl, fun hlt' => absurd hlt' hlt⟩

theorem accept_isSome {p : Token → Bool} {o : Option Token} (h : accept p c = (.ok o, c')) :
    o.isSome = c.ahead.head?.any p ∧ c' = c.skip (if o.isSome then 1 else 0) := by
  rcases accept_ok h with ⟨t, hhead, hp, rfl, rfl⟩ | ⟨hp, rfl, rfl⟩
  · simp [hhead, hp]
  · cases hhead : c'.ahead.head? with
    | none => simp
    | some t => simp [hp t hhead]

theorem length_le_of_beginsWith {words : List Text} {ts : List Token}
    (h : beginsWith words ts = true) : words.length ≤ ts.length := by
  fun_induction beginsWith words ts with
  | case1 => simp
  | case2 => simp at h
  | case3 word words t ts ih =>
      have := ih (by simp_all)
      simp only [List.length_cons]
      omega

theorem skipSetting_ok {u : Unit} (h : skipSetting c = (.ok u, c')) :
    settingLength c.ahead ≤ c.ahead.length ∧ c' = c.skip (settingLength c.ahead) := by
  obtain ⟨o, middle, ho, hrest⟩ := bind_ok h
  obtain ⟨hsome, rfl⟩ := accept_isSome ho
  obtain ⟨t, middle, hadvance, hrest⟩ := bind_ok hrest
  obtain ⟨hhead, rfl⟩ := advance_ok hadvance
  obtain ⟨-, rfl⟩ := pure_ok hrest
  have hlength := (List.getElem?_eq_some_iff.1 (List.head?_eq_getElem? ▸ hhead)).1
  rw [Cursor.ahead_skip, List.length_drop] at hlength
  rw [Cursor.skip_skip, settingLength, ← hsome]
  split at hlength
  · next hsome =>
      simp only [hsome, if_true]
      exact ⟨by omega, trivial⟩
  · next hsome =>
      simp only [hsome]
      refine ⟨?_, rfl⟩
      simp only [Bool.false_eq_true, if_false, Nat.sub_zero] at hlength ⊢
      omega

theorem skipUpdateRule_ok {u : Unit} (h : skipUpdateRule c = (.ok u, c')) :
    1 + groupLength (c.ahead.drop 1) ≤ c.ahead.length ∧
      c' = c.skip (1 + groupLength (c.ahead.drop 1)) := by
  obtain ⟨t, middle, hadvance, hrest⟩ := bind_ok h
  obtain ⟨hhead, rfl⟩ := advance_ok hadvance
  have hgroup := skipGroup_ok hrest
  have hle := groupLength_le (c.ahead.drop 1)
  have hlength := (List.getElem?_eq_some_iff.1 (List.head?_eq_getElem? ▸ hhead)).1
  rw [List.length_drop] at hle
  refine ⟨by omega, ?_⟩
  rw [hgroup, Cursor.ahead_skip, Cursor.skip_skip]

theorem acceptCharacterSet_ok {b : Bool} (h : acceptCharacterSet c = (.ok b, c')) :
    (b = true ∧ beginsWith ["CHARACTER", "SET"] c.ahead = true ∧ c' = c.skip 2) ∨
      (b = true ∧ beginsWith ["CHARACTER", "SET"] c.ahead = false ∧
        c.ahead.head?.any (·.isWord ["CHARSET", "COLLATE"]) = true ∧ c' = c.skip 1) ∨
      (b = false ∧ beginsWith ["CHARACTER", "SET"] c.ahead = false ∧
        c.ahead.head?.any (·.isWord ["CHARSET", "COLLATE"]) = false ∧ c' = c.skip 0) := by
  obtain ⟨two, middle, htwo, hrest⟩ := bind_ok h
  obtain ⟨rfl, rfl⟩ := acceptWords_ok htwo
  split at hrest
  · next hbegins =>
      obtain ⟨rfl, rfl⟩ := pure_ok hrest
      exact .inl ⟨rfl, hbegins, by simp⟩
  · next hbegins =>
      have hbegins : beginsWith ["CHARACTER", "SET"] c.ahead = false := by simpa using hbegins
      obtain ⟨o, middle, ho, hrest⟩ := bind_ok hrest
      obtain ⟨hsome, rfl⟩ := accept_isSome ho
      obtain ⟨rfl, rfl⟩ := pure_ok hrest
      simp only [hbegins, Bool.false_eq_true, Cursor.skip_zero] at hsome ⊢
      cases hb : o.isSome with
      | true => exact .inr (.inl ⟨rfl, trivial, by rw [← hsome, hb], by simp⟩)
      | false => exact .inr (.inr ⟨rfl, trivial, by rw [← hsome, hb], by simp⟩)

theorem removalSince_ok {before : Cursor} {edit : Edit}
    (h : removalSince before c = (.ok edit, c')) :
    edit = ⟨before.reached, c.reached, []⟩ ∧ c' = c := by
  obtain ⟨d, middle, hd, hrest⟩ := bind_ok h
  obtain ⟨rfl, rfl⟩ := here_ok hd
  obtain ⟨rfl, rfl⟩ := pure_ok hrest
  exact ⟨rfl, rfl⟩

end Reading

end Restate
