import Mathlib.Data.List.Forall2
import Restate.Proofs.Batch
import Restate.Proofs.Moved
import Restate.Proofs.Refusal
import Restate.Proofs.Rows.Blindness
import Restate.Proofs.Schema.Definitions
import Restate.Proofs.Text.Signs

/-!
# What statements are classified by

The kind of a statement is told by the kinds and the upper case of its significant tokens; what
stands in quotes does not count. Only statements on a short list are ignorable. Main statement:
`classify_determined`.
-/

namespace Restate

/-- String literals and names in quotes. -/
def TokenKind.isQuoted : TokenKind → Bool
  | .string | .quotedIdentifier => true
  | _ => false

theorem TokenKind.isQuoted_of_isBare {kind : TokenKind} (h : kind.isBare = true) :
    kind.isQuoted = false := by
  cases kind with
  | keyword | identifier => rfl
  | _ => cases h

namespace Token

/-- Two tokens of one kind with one text in upper case. Of what is quoted, the opening quote is
enough. -/
def Resembles (t u : Token) : Prop :=
  t.kind = u.kind ∧
    (t.upper = u.upper ∨ t.kind.isQuoted = true ∧ t.text.head? = u.text.head?)

instance (t u : Token) : Decidable (t.Resembles u) :=
  inferInstanceAs (Decidable (_ ∧ (_ ∨ _ ∧ _)))

namespace Resembles

variable {t u : Token} {m : Char}

theorem upper_eq (h : t.Resembles u) (hkind : t.kind.isQuoted = false) : t.upper = u.upper := by
  rcases h.2 with hupper | ⟨hquoted, -⟩
  · exact hupper
  · simp [hkind] at hquoted

theorem isWord_eq (h : t.Resembles u) (words : List Text) : t.isWord words = u.isWord words := by
  cases hbare : t.kind.isBare with
  | false => simp [isWord, ← h.1, hbare]
  | true => rw [isWord, isWord, ← h.1, h.upper_eq (TokenKind.isQuoted_of_isBare hbare)]

/-- A sign is its own upper case. -/
theorem text_eq_sign_iff (h : t.Resembles u) (hkind : t.kind.isQuoted = false)
    (hm : m.toNat < 65) : t.text = [m] ↔ u.text = [m] := by
  have hupper : Text.upper t.text = Text.upper u.text := h.upper_eq hkind
  rw [← Text.upper_eq_sign_iff hm t.text, hupper, Text.upper_eq_sign_iff hm]

theorem isPunct_eq (h : t.Resembles u) (hm : m.toNat < 65) : t.isPunct [m] = u.isPunct [m] := by
  rw [Bool.eq_iff_iff, isPunct, isPunct, Bool.and_eq_true, Bool.and_eq_true, beq_iff_eq, beq_iff_eq,
    beq_iff_eq, beq_iff_eq, ← h.1]
  exact and_congr_right fun hkind => h.text_eq_sign_iff (by rw [hkind]; rfl) hm

theorem isOperator_eq (h : t.Resembles u) (hm : m.toNat < 65) :
    t.isOperator [m] = u.isOperator [m] := by
  rw [Bool.eq_iff_iff, isOperator, isOperator, Bool.and_eq_true, Bool.and_eq_true, beq_iff_eq,
    beq_iff_eq, beq_iff_eq, beq_iff_eq, ← h.1]
  exact and_congr_right fun hkind => h.text_eq_sign_iff (by rw [hkind]; rfl) hm

theorem head?_text_iff (h : t.Resembles u) (hm : m.toNat < 65) :
    t.text.head? = some m ↔ u.text.head? = some m := by
  rcases h.2 with hupper | ⟨-, hhead⟩
  · rw [← Text.head?_upper_sign_iff hm t.text, ← Text.head?_upper_sign_iff hm u.text]
    exact iff_of_eq (congrArg (List.head? · = some m) hupper)
  · rw [hhead]

end Resembles

end Token

section Depth

variable {ts us : List Token}

theorem length_splitAtDepth_resembles (h : List.Forall₂ Token.Resembles ts us) (depth : Int) :
    (splitAtDepth "," depth ts).length = (splitAtDepth "," depth us).length := by
  induction h generalizing depth with
  | nil => rfl
  | @cons t u ts us htoken _ ih =>
      have hkeep : ∀ depth, (consFirst t (splitAtDepth "," depth ts)).length =
          (consFirst u (splitAtDepth "," depth us)).length := by
        intro depth
        rw [length_consFirst t (splitAtDepth_ne_nil _ _ _),
          length_consFirst u (splitAtDepth_ne_nil _ _ _), ih]
      have hopening : t.isPunct "(" = u.isPunct "(" := htoken.isPunct_eq (by decide)
      have hclosing : t.isPunct ")" = u.isPunct ")" := htoken.isPunct_eq (by decide)
      have hcomma : t.isPunct "," = u.isPunct "," := htoken.isPunct_eq (by decide)
      rw [splitAtDepth, splitAtDepth, hopening, hclosing, hcomma]
      split
      · exact hkeep _
      · split
        · exact hkeep _
        · split
          · rw [List.length_cons, List.length_cons, ih]
          · exact hkeep _

end Depth

namespace StatementKind

section Resembling

variable {ts us : List Token}

theorem leadingWords_resembles (h : List.Forall₂ Token.Resembles ts us) (limit : Nat) :
    leadingWords limit ts = leadingWords limit us := by
  unfold leadingWords
  rw [List.map_take, List.map_take]
  congr 1
  induction h with
  | nil => rfl
  | @cons t u ts us htoken _ ih =>
      rw [List.takeWhile_cons, List.takeWhile_cons, ← htoken.1]
      cases hbare : t.kind.isBare with
      | false => rfl
      | true =>
          simp only [if_true, List.map_cons]
          rw [ih, htoken.upper_eq (TokenKind.isQuoted_of_isBare hbare)]

theorem afterUser_resembles {user user' : Token} (huser : user.Resembles user')
    (h : List.Forall₂ Token.Resembles ts us) :
    List.Forall₂ Token.Resembles (afterUser user ts) (afterUser user' us) := by
  cases h with
  | nil => exact .nil
  | @cons opening opening' ts us hopening h =>
      cases h with
      | nil => exact .cons hopening .nil
      | @cons closing closing' ts us hclosing h =>
          have hleft : opening.isPunct "(" = opening'.isPunct "(" :=
            hopening.isPunct_eq (by decide)
          have hright : closing.isPunct ")" = closing'.isPunct ")" :=
            hclosing.isPunct_eq (by decide)
          dsimp only [afterUser]
          rw [huser.isWord_eq, hleft, hright]
          split
          · exact h
          · exact .cons hopening (.cons hclosing h)

theorem afterHost_resembles (h : List.Forall₂ Token.Resembles ts us) :
    List.Forall₂ Token.Resembles (afterHost ts) (afterHost us) := by
  cases h with
  | nil => exact .nil
  | cons hhost h =>
      unfold afterHost
      simp only [hhost.head?_text_iff (m := '@') (by decide)]
      split
      · exact h
      · exact .cons hhost h

theorem decidingWords_resembles (h : List.Forall₂ Token.Resembles ts us) :
    decidingWords ts = decidingWords us := by
  unfold decidingWords
  rw [leadingWords_resembles h]
  dsimp only
  congr 1
  match h with
  | .nil | .cons _ .nil | .cons _ (.cons _ .nil) | .cons _ (.cons _ (.cons _ .nil)) => rfl
  | .cons _ (.cons _ (.cons hequals (.cons huser h))) =>
      rw [afterDefiner_eq, afterDefiner_eq]
      have hsign := hequals.isOperator_eq (m := '=') (by decide)
      rw [show "=".toList = ['='] from rfl, hsign]
      split
      · simp only [Except.map]
        rw [leadingWords_resembles (afterHost_resembles (afterUser_resembles huser h))]
      · rfl

theorem ofAddition_resembles {t u : Token} (h : t.Resembles u) :
    (ofAddition t).toOption = (ofAddition u).toOption := by
  have hopening : t.isPunct "(" = u.isPunct "(" := h.isPunct_eq (by decide)
  unfold ofAddition
  simp only [h.isWord_eq, hopening]
  repeat' split
  all_goals rfl

theorem ofAlter_resembles (h : List.Forall₂ Token.Resembles ts us) :
    (ofAlter ts).toOption = (ofAlter us).toOption := by
  match ts, us, h with
  | _, _, .nil | _, _, .cons _ .nil | _, _, .cons _ (.cons _ .nil)
  | _, _, .cons _ (.cons _ (.cons _ .nil)) => rfl
  | _ :: _ :: _ :: action :: rest, _ :: _ :: _ :: action' :: rest',
      .cons _ (.cons htable (.cons _ (.cons haction hrest))) =>
      have hparts : (splitTopLevel "," (action :: rest)).length =
          (splitTopLevel "," (action' :: rest')).length :=
        length_splitAtDepth_resembles (.cons haction hrest) 0
      simp only [ofAlter, hparts, htable.isWord_eq]
      split
      · rfl
      · split
        · rfl
        · cases hrest with
          | nil => rfl
          | cons htarget hrest =>
              simp only [haction.isWord_eq, htarget.isWord_eq]
              split
              · exact ofAddition_resembles htarget
              · split
                · rfl
                · rfl

/-- Statements whose tokens resemble each other are of one kind, or all of none. -/
theorem ofSignificant_resembles (h : List.Forall₂ Token.Resembles ts us) :
    (ofSignificant ts).toOption = (ofSignificant us).toOption := by
  have hwords := decidingWords_resembles h
  have halter := ofAlter_resembles h
  cases h with
  | nil => rfl
  | @cons first first' ts us hfirst h =>
      rw [ofSignificant, ofSignificant, hwords, ← hfirst.1]
      split
      · cases decidingWords (first' :: us) with
        | error e => rfl
        | ok words =>
            dsimp only [bind, Except.bind]
            cases ofWords? words with
            | some kind => rfl
            | none =>
                dsimp only
                split
                · exact halter
                · rfl
      · rfl

end Resembling

/-- Parentheses behind a user, which only `CURRENT_USER` may have. -/
inductive UserParens (user : Token) : List Token → Prop where
  | none : UserParens user []
  | both {opening closing : Token} : user.isWord ["CURRENT_USER"] = true →
      opening.isPunct "(" = true → closing.isPunct ")" = true → UserParens user [opening, closing]

/-- The host of a user, which may be left out. -/
inductive UserHost : List Token → Prop where
  | none : UserHost []
  | named {host : Token} : host.text.head? = some '@' → UserHost [host]

/-- The tokens are `DEFINER`, an equals sign and a user. -/
inductive IsDefiner : List Token → Prop where
  | mk {definer equals user : Token} {parens host : List Token} :
      definer.isWord ["DEFINER"] = true → equals.isOperator "=" = true →
      UserParens user parens → UserHost host →
      IsDefiner (definer :: equals :: user :: (parens ++ host))

/-- The tokens begin with the words, if a definer directly behind `CREATE` is looked through. -/
def Leads (words : List Text) (tokens : List Token) : Prop :=
  Reading.beginsWith words tokens = true ∨
    ∃ create definer rest, tokens = create :: (definer ++ rest) ∧
      create.isWord ["CREATE"] = true ∧ IsDefiner definer ∧
      Reading.beginsWith words (create :: rest) = true

section Ignorable

variable {words : List Text} {tokens rest parens host : List Token} {t user : Token}

theorem leadingWords_cons (limit : Nat) (t : Token) (ts : List Token) :
    leadingWords (limit + 1) (t :: ts) =
      if t.kind.isBare then t.upper :: leadingWords limit ts else [] := by
  unfold leadingWords
  rw [List.takeWhile_cons]
  split
  · rfl
  · rfl

/-- Words that fit into the leading words are the first of these just if the tokens begin with
them. -/
theorem beginsWith_iff (limit : Nat) (hlimit : words.length ≤ limit) :
    Reading.beginsWith words tokens = true ↔ words <+: leadingWords limit tokens := by
  induction words generalizing limit tokens with
  | nil => simp [Reading.beginsWith]
  | cons word words ih =>
      cases limit with
      | zero => simp at hlimit
      | succ limit =>
          cases tokens with
          | nil => simp [Reading.beginsWith, leadingWords_nil]
          | cons t ts =>
              rw [Reading.beginsWith, Bool.and_eq_true, Token.isWord_iff, leadingWords_cons,
                List.mem_singleton, ih limit (by simpa using hlimit)]
              split
              · next hbare => rw [List.cons_prefix_cons]; simp [hbare, eq_comm]
              · next hbare => simp [hbare]

theorem mem_onRows_of_lookup {leader : Text} {kind : StatementKind}
    (h : rowStatements.lookup leader = some kind) : kind ∈ onRows := by
  have hkinds : ∀ row ∈ rowStatements, row.2 ∈ onRows := by decide
  obtain ⟨before, after, hrows, -⟩ := List.lookup_eq_some_iff.1 h
  exact hkinds (leader, kind) (by simp [hrows])

theorem mem_of_ofObject? {leader : Text} {kind : StatementKind}
    (h : ofObject? leader words = some kind) :
    kind ∈ [createTable, createIndex, dropTable, dropIndex] := by
  unfold ofObject? at h
  dsimp only at h
  split at h
  · split at h
    · simp [← Option.some.inj h]
    · split at h
      · simp [← Option.some.inj h]
      · simp at h
  · split at h
    · split at h
      · simp [← Option.some.inj h]
      · split at h
        · simp [← Option.some.inj h]
        · simp at h
    · simp at h

/-- What begins like a statement without a meaning is one. -/
theorem ofWords?_ignorable_iff :
    ofWords? words = some .ignorable ↔ ∃ sequence ∈ ignorableStatements, sequence <+: words := by
  have hany : ignorableStatements.any (·.isPrefixOf words) = true ↔
      ∃ sequence ∈ ignorableStatements, sequence <+: words := by
    simp [List.any_eq_true, List.isPrefixOf_iff_prefix]
  rw [← hany]
  unfold ofWords?
  split
  · next htransaction =>
      -- no word begins statements of both sorts
      refine iff_of_false (by simp) fun hignorable => ?_
      obtain ⟨first, hfirst, hprefix⟩ := List.any_eq_true.1 htransaction
      obtain ⟨second, hsecond, hprefix'⟩ := List.any_eq_true.1 hignorable
      have hapart : ∀ first ∈ transactionStatements, ∀ second ∈ ignorableStatements,
          ¬ first <+: second ∧ ¬ second <+: first := by decide
      rcases List.prefix_or_prefix_of_prefix (List.isPrefixOf_iff_prefix.1 hprefix)
        (List.isPrefixOf_iff_prefix.1 hprefix') with hbefore | hbefore
      · exact (hapart first hfirst second hsecond).1 hbefore
      · exact (hapart first hfirst second hsecond).2 hbefore
  · split
    · next hignorable => exact iff_of_true rfl hignorable
    · next hignorable =>
        refine iff_of_false ?_ hignorable
        cases words with
        | nil => simp
        | cons leader rest =>
            dsimp only
            split
            · next kind hlookup =>
                rintro ⟨⟩
                exact absurd (mem_onRows_of_lookup hlookup) (by decide)
            · exact fun h => absurd (mem_of_ofObject? h) (by decide)

/-- What alters a table adds or drops one thing. -/
theorem ofAlter_eq_ok_iff {kind : StatementKind} :
    ofAlter tokens = .ok kind ↔ ∃ alter table name action target rest,
      tokens = alter :: table :: name :: action :: target :: rest ∧
      table.isWord ["TABLE"] = true ∧
      (splitTopLevel "," (action :: target :: rest)).length = 1 ∧
      (action.isWord ["ADD"] = true ∧ ofAddition target = .ok kind ∨
        action.isWord ["DROP"] = true ∧ target.isWord ["INDEX", "KEY"] = true ∧
          kind = .dropIndex) := by
  have hparts : ∀ ts, (splitTopLevel "," ts).length = 1 ↔ ¬ (splitTopLevel "," ts).length > 1 := by
    intro ts
    have := List.length_pos_iff.2 (splitAtDepth_ne_nil "," 0 ts)
    unfold splitTopLevel
    omega
  constructor
  · intro h
    unfold ofAlter at h
    split at h
    · split at h
      · simp at h
      · next htable =>
          split at h
          · simp at h
          · next hone =>
              split at h
              · refine ⟨_, _, _, _, _, _, rfl, by simpa using htable, (hparts _).2 hone, ?_⟩
                split at h
                · next hadd => exact .inl ⟨hadd, h⟩
                · split at h
                  · next hdrop =>
                      obtain ⟨hdrop, htarget⟩ := Bool.and_eq_true_iff.1 hdrop
                      exact .inr ⟨hdrop, htarget, (Except.ok.inj h).symm⟩
                  · simp at h
              · simp at h
    · simp at h
  · rintro ⟨alter, table, name, action, target, rest, rfl, htable, hone, hkind⟩
    rw [ofAlter, htable, if_neg (by simp), if_neg ((hparts _).1 hone)]
    rcases hkind with ⟨hadd, hkind⟩ | ⟨hdrop, htarget, rfl⟩
    · rw [if_pos hadd, hkind]
    · have hadd : action.isWord ["ADD"] = false := Token.isWord_of_disjoint hdrop (by decide)
      rw [if_neg (ne_true_of_eq_false hadd), if_pos (by rw [hdrop, htarget]; rfl)]

theorem ofAddition_ne_ignorable (target : Token) : ofAddition target ≠ .ok .ignorable := by
  unfold ofAddition
  repeat' split
  all_goals simp

theorem ofAlter_ne_ignorable (tokens : List Token) : ofAlter tokens ≠ .ok .ignorable := by
  intro h
  obtain ⟨_, _, _, _, target, _, -, -, -, ⟨-, h⟩ | ⟨-, -, h⟩⟩ := ofAlter_eq_ok_iff.1 h
  · exact ofAddition_ne_ignorable target h
  · cases h

/-- A statement is ignorable just if the words that decide say so. -/
theorem ofSignificant_ignorable_iff :
    ofSignificant tokens = .ok .ignorable ↔
      ∃ words, decidingWords tokens = .ok words ∧
        ∃ sequence ∈ ignorableStatements, sequence <+: words := by
  simp only [← ofWords?_ignorable_iff]
  cases tokens with
  | nil =>
      refine iff_of_false (by simp [ofSignificant]) ?_
      rintro ⟨words, hwords, hkind⟩
      obtain rfl : [] = words := Except.ok.inj hwords
      simp [ofWords?_nil] at hkind
  | cons first rest =>
      cases hbare : first.kind.isBare with
      | false =>
          refine iff_of_false (by simp [ofSignificant, hbare]) ?_
          have hnone : leadingWords 4 (first :: rest) = [] := by simp [leadingWords, hbare]
          rw [decidingWords, hnone, if_neg (by simp)]
          rintro ⟨words, hwords, hkind⟩
          obtain rfl := Except.ok.inj hwords
          simp [ofWords?_nil] at hkind
      | true =>
          rw [ofSignificant, if_pos hbare, except_bind_ok]
          refine exists_congr fun words => and_congr_right fun _ => ?_
          split
          · next kind hkind => simp [hkind]
          · next hnone =>
              rw [hnone]
              refine iff_of_false ?_ (by simp)
              split
              · exact ofAlter_ne_ignorable _
              · simp

theorem decidingWords_eq_ok_iff :
    decidingWords tokens = .ok words ↔
      leadingWords 4 tokens ≠ ["CREATE".toList, "DEFINER"] ∧ words = leadingWords 4 tokens ∨
      leadingWords 4 tokens = ["CREATE".toList, "DEFINER"] ∧
        ∃ rest, afterDefiner tokens = .ok rest ∧
          words = "CREATE".toList :: leadingWords 3 rest := by
  unfold decidingWords
  dsimp only
  split
  · next h =>
      rw [except_map_ok]
      constructor
      · rintro ⟨rest, hrest, rfl⟩
        exact .inr ⟨h, rest, hrest, rfl⟩
      · rintro (⟨hne, -⟩ | ⟨-, rest, hrest, rfl⟩)
        · exact (hne h).elim
        · exact ⟨rest, hrest, rfl⟩
  · next h =>
      constructor
      · intro heq
        exact .inl ⟨h, (Except.ok.inj heq).symm⟩
      · rintro (⟨-, rfl⟩ | ⟨hdefiner, -⟩)
        · rfl
        · exact (h hdefiner).elim

theorem UserHost.afterHost_append (h : UserHost host) (ht : t.text.head? ≠ some '@') :
    afterHost (host ++ t :: rest) = t :: rest := by
  cases h with
  | none => exact if_neg ht
  | named hhost => exact if_pos hhost

/-- Parentheses are passed by, and others than these are left for the word behind the host. -/
theorem UserParens.afterUser_append (h : UserParens user parens) (hhost : UserHost host)
    (ht : t.kind.isBare = true) :
    afterUser user (parens ++ (host ++ t :: rest)) = host ++ t :: rest := by
  have hmark : ∀ mark, t.isPunct mark = false := by
    intro mark
    rw [← Bool.not_eq_true]
    intro h
    simp [not_isBare_of_isPunct h] at ht
  cases h with
  | both huser hopening hclosing => exact if_pos (by rw [huser, hopening, hclosing]; rfl)
  | none =>
      cases hhost with
      | named _ => exact if_neg (by rw [hmark, Bool.and_false]; exact Bool.false_ne_true)
      | none =>
          cases rest with
          | nil => rfl
          | cons u rest =>
              exact if_neg (by rw [hmark, Bool.and_false]; exact Bool.false_ne_true)

theorem exists_userHost (ts : List Token) : ∃ host, UserHost host ∧ ts = host ++ afterHost ts := by
  cases ts with
  | nil => exact ⟨[], .none, rfl⟩
  | cons u ts =>
      by_cases hu : u.text.head? = some '@'
      · exact ⟨[u], .named hu, by rw [afterHost, if_pos hu]; rfl⟩
      · exact ⟨[], .none, by rw [afterHost, if_neg hu]; rfl⟩

theorem exists_userParens (user : Token) (ts : List Token) :
    ∃ parens, UserParens user parens ∧ ts = parens ++ afterUser user ts := by
  match ts with
  | [] | [_] => exact ⟨[], .none, rfl⟩
  | opening :: closing :: more =>
      dsimp only [afterUser]
      split
      · next h =>
          simp only [Bool.and_eq_true] at h
          exact ⟨[opening, closing], .both h.1.1 h.1.2 h.2, rfl⟩
      · exact ⟨[], .none, rfl⟩

/-- Before a definer the leading words are `CREATE` and `DEFINER`. -/
theorem leadingWords_definer {create definer equals : Token} {more : List Token}
    (hcreate : create.isWord ["CREATE"] = true) (hdefiner : definer.isWord ["DEFINER"] = true)
    (hequals : equals.isOperator "=" = true) :
    leadingWords 4 (create :: definer :: equals :: more) = ["CREATE".toList, "DEFINER"] := by
  obtain ⟨hbare, hupper⟩ := Token.isWord_iff.1 hcreate
  obtain ⟨hbare', hupper'⟩ := Token.isWord_iff.1 hdefiner
  have hoperator : equals.kind.isBare = false := by
    simp only [Token.isOperator, Bool.and_eq_true, beq_iff_eq] at hequals
    rw [hequals.1]
    rfl
  rw [leadingWords_cons, leadingWords_cons, leadingWords_cons, if_pos hbare, if_pos hbare',
    if_neg (ne_true_of_eq_false hoperator), List.mem_singleton.1 hupper,
    List.mem_singleton.1 hupper']

/-- Where such words are looked behind, a definer stands. -/
theorem exists_definer_of_ok (hwords : leadingWords 4 tokens = ["CREATE".toList, "DEFINER"])
    (hrest : afterDefiner tokens = .ok rest) :
    ∃ create definer, tokens = create :: (definer ++ rest) ∧ create.isWord ["CREATE"] = true ∧
      IsDefiner definer := by
  match tokens with
  | [] | [_] | [_, _] | [_, _, _] => simp [afterDefiner] at hrest
  | create :: definer :: equals :: user :: more =>
      rw [afterDefiner_eq] at hrest
      split at hrest
      · next hequals =>
          obtain rfl := Except.ok.inj hrest
          obtain ⟨parens, hparens, hmore⟩ := exists_userParens user more
          obtain ⟨host, hhost, hbehind⟩ := exists_userHost (afterUser user more)
          rw [leadingWords_cons] at hwords
          split at hwords
          · next hcreate =>
              obtain ⟨hupper, hwords⟩ := List.cons.inj hwords
              rw [leadingWords_cons] at hwords
              split at hwords
              · next hdefiner =>
                  obtain ⟨hupper', -⟩ := List.cons.inj hwords
                  refine ⟨create, definer :: equals :: user :: (parens ++ host), ?_,
                    Token.isWord_iff.2 ⟨hcreate, by simp [hupper]⟩,
                    .mk (Token.isWord_iff.2 ⟨hdefiner, by simp [hupper']⟩) hequals hparens hhost⟩
                  rw [List.cons_append, List.cons_append, List.cons_append, List.append_assoc,
                    ← hbehind, ← hmore]
              · simp at hwords
          · simp at hwords
      · simp at hrest

/-- Behind `CREATE` stands a word of the sequence, if it says more than that a definer follows. -/
theorem exists_second_word (hmore : ¬ words <+: ["CREATE".toList, "DEFINER"])
    (h : words <+: "CREATE".toList :: leadingWords 3 rest) :
    ∃ t more, rest = t :: more ∧ t.kind.isBare = true ∧ t.upper ∈ words := by
  cases words with
  | nil => exact (hmore List.nil_prefix).elim
  | cons first words =>
      obtain ⟨rfl, hwords⟩ := List.cons_prefix_cons.1 h
      cases words with
      | nil => exact (hmore (by decide)).elim
      | cons second words =>
          cases rest with
          | nil => simp [leadingWords_nil] at hwords
          | cons t more =>
              rw [leadingWords_cons] at hwords
              split at hwords
              · next ht =>
                  obtain ⟨rfl, -⟩ := List.cons_prefix_cons.1 hwords
                  exact ⟨t, more, rfl, ht, by simp⟩
              · simp at hwords

/-- Whether the deciding words begin with a sequence is told by the tokens. The sequence is one that
says more than that a definer follows. -/
theorem exists_decidingWords_iff (hlength : words.length ≤ 3)
    (hmore : ¬ words <+: ["CREATE".toList, "DEFINER"])
    (hhead : ∀ word ∈ words, word.head? ≠ some '@') :
    (∃ deciding, decidingWords tokens = .ok deciding ∧ words <+: deciding) ↔
      Leads words tokens := by
  simp only [decidingWords_eq_ok_iff]
  constructor
  · rintro ⟨deciding, ⟨-, rfl⟩ | ⟨hdefiner, rest, hrest, rfl⟩, hprefix⟩
    · exact .inl ((beginsWith_iff 4 (by omega)).2 hprefix)
    · obtain ⟨create, definer, rfl, hcreate, hclause⟩ := exists_definer_of_ok hdefiner hrest
      refine .inr ⟨create, definer, rest, rfl, hcreate, hclause, ?_⟩
      obtain ⟨hbare, hupper⟩ := Token.isWord_iff.1 hcreate
      rw [beginsWith_iff 4 (by omega), leadingWords_cons, if_pos hbare,
        List.mem_singleton.1 hupper]
      exact hprefix
  · rintro (hbegins | ⟨create, _, rest, rfl, hcreate, hclause, hbegins⟩)
    · have hprefix := (beginsWith_iff 4 (by omega)).1 hbegins
      exact ⟨_, .inl ⟨fun hdefiner => hmore (hdefiner ▸ hprefix), rfl⟩, hprefix⟩
    · have hprefix := (beginsWith_iff 4 (by omega)).1 hbegins
      obtain ⟨hbare, hupper⟩ := Token.isWord_iff.1 hcreate
      rw [leadingWords_cons, if_pos hbare, List.mem_singleton.1 hupper] at hprefix
      obtain @⟨definer, equals, user, parens, host, hdefiner, hequals, hparens, hhost⟩ := hclause
      -- behind the definer stands a word of the sequence, so all of the definer is passed
      obtain ⟨t, more, rfl, ht, hupper⟩ := exists_second_word hmore hprefix
      have hsign : t.text.head? ≠ some '@' := by
        rw [ne_eq, ← Text.head?_upper_sign_iff (by decide)]
        exact hhead t.upper hupper
      refine ⟨_, .inr ⟨leadingWords_definer hcreate hdefiner hequals, t :: more, ?_, rfl⟩, hprefix⟩
      rw [List.cons_append, List.cons_append, List.cons_append, List.append_assoc, afterDefiner_eq,
        if_pos hequals, hparens.afterUser_append hhost ht, hhost.afterHost_append hsign]

end Ignorable

section Fulltext

variable {tokens : List Token}

theorem ofAddition_fulltext_iff {target : Token} :
    ofAddition target = .ok .alterAddFulltextKey ↔ target.isWord ["FULLTEXT"] = true := by
  constructor
  · intro h
    unfold ofAddition at h
    split at h
    · simp at h
    · split at h
      · simp at h
      · split at h
        · simp at h
        · split at h
          · next hfulltext => exact hfulltext
          · split at h
            · simp at h
            · simp at h
  · intro h
    have hother : ∀ words : List Text, "FULLTEXT".toList ∉ words → target.isWord words = false := by
      intro words hwords
      exact Token.isWord_of_disjoint h (by simpa using hwords)
    rw [ofAddition, hother ["COLUMN"] (by decide), hother ["KEY", "INDEX"] (by decide),
      hother ["UNIQUE"] (by decide), h]
    rfl

/-- The tokens add a full text key to a table and do nothing else: behind the name of the table no
comma stands outside parentheses. -/
def AddsFulltextKey (tokens : List Token) : Prop :=
  ∃ alter table name add fulltext rest,
    tokens = alter :: table :: name :: add :: fulltext :: rest ∧
    alter.isWord ["ALTER"] = true ∧ table.isWord ["TABLE"] = true ∧
    add.isWord ["ADD"] = true ∧ fulltext.isWord ["FULLTEXT"] = true ∧
    ∀ before comma after, add :: fulltext :: rest = before ++ comma :: after →
      comma.isPunct "," = true → openParens before ≠ 0

theorem ofWords?_alter (words : List Text) : ofWords? ("ALTER".toList :: words) = none :=
  rfl

theorem ofWords?_ne_fulltext (words : List Text) : ofWords? words ≠ some .alterAddFulltextKey := by
  unfold ofWords?
  split
  · simp
  · split
    · simp
    · cases words with
      | nil => simp
      | cons leader rest =>
          dsimp only
          split
          · next kind hlookup =>
              rintro ⟨⟩
              exact absurd (mem_onRows_of_lookup hlookup) (by decide)
          · exact fun h => absurd (mem_of_ofObject? h) (by decide)

theorem ofSignificant_fulltext_iff :
    ofSignificant tokens = .ok .alterAddFulltextKey ↔
      (∃ first rest, tokens = first :: rest ∧ first.isWord ["ALTER"] = true) ∧
        ofAlter tokens = .ok .alterAddFulltextKey := by
  cases tokens with
  | nil => simp [ofSignificant]
  | cons first rest =>
      have hleading : first.kind.isBare = true →
          leadingWords 4 (first :: rest) = first.upper :: leadingWords 3 rest :=
        fun hbare => by rw [leadingWords_cons, if_pos hbare]
      have hfirst : (∃ first' rest', first :: rest = first' :: rest' ∧
          first'.isWord ["ALTER"] = true) ↔ first.isWord ["ALTER"] = true := by
        simp [and_assoc]
      rw [hfirst]
      constructor
      · intro h
        rw [ofSignificant] at h
        split at h
        · next hbare =>
            obtain ⟨words, hwords, h⟩ := except_bind_ok.1 h
            split at h
            · next kind hkind =>
                obtain rfl := Except.ok.inj h
                exact (ofWords?_ne_fulltext words hkind).elim
            · split at h
              · next halter =>
                  refine ⟨?_, h⟩
                  rcases decidingWords_eq_ok_iff.1 hwords with ⟨-, rfl⟩ | ⟨-, more, -, rfl⟩
                  · rw [hleading hbare] at halter
                    exact Token.isWord_iff.2 ⟨hbare, by simpa using halter⟩
                  · simp at halter
              · simp at h
        · simp at h
      · rintro ⟨halter, h⟩
        obtain ⟨hbare, hupper⟩ := Token.isWord_iff.1 halter
        have hwords : decidingWords (first :: rest) =
            .ok ("ALTER".toList :: leadingWords 3 rest) := by
          rw [decidingWords_eq_ok_iff, hleading hbare, List.mem_singleton.1 hupper]
          exact .inl ⟨by simp, rfl⟩
        rw [ofSignificant, if_pos hbare, hwords]
        dsimp only [bind, Except.bind]
        rw [ofWords?_alter]
        exact h

theorem ofSignificant_addsFulltextKey_iff :
    ofSignificant tokens = .ok .alterAddFulltextKey ↔ AddsFulltextKey tokens := by
  have hcommas : ∀ ts, (splitTopLevel "," ts).length = 1 ↔ ∀ before comma after,
      ts = before ++ comma :: after → comma.isPunct "," = true → openParens before ≠ 0 :=
    fun ts => length_splitTopLevel_eq_one_iff (by decide) (by decide)
  rw [ofSignificant_fulltext_iff, ofAlter_eq_ok_iff]
  constructor
  · rintro ⟨⟨alter', rest', heq, halter⟩, alter, table, name, add, fulltext, rest, rfl, htable,
      hone, ⟨hadd, hfulltext⟩ | ⟨-, -, h⟩⟩
    · obtain ⟨rfl, -⟩ := List.cons.inj heq
      exact ⟨alter, table, name, add, fulltext, rest, rfl, halter, htable, hadd,
        ofAddition_fulltext_iff.1 hfulltext, (hcommas _).1 hone⟩
    · cases h
  · rintro ⟨alter, table, name, add, fulltext, rest, rfl, halter, htable, hadd, hfulltext, hone⟩
    exact ⟨⟨alter, _, rfl, halter⟩, alter, table, name, add, fulltext, rest, rfl, htable,
      (hcommas _).2 hone, .inl ⟨hadd, ofAddition_fulltext_iff.2 hfulltext⟩⟩

end Fulltext

/-- The kind of a statement, or that it has none, is told by the kinds and the upper case of its
significant tokens. It is ignorable just if it begins with one of five sequences of words, and adds
a full text key just if it does nothing else. Words are bare: what is quoted is none. -/
theorem classify_determined (ts : List Token) :
    (∀ us, List.Forall₂ Token.Resembles (significant ts) (significant us) →
      (classify ts).toOption = (classify us).toOption) ∧
    Refusing (classify ts) ∧
    (classify ts = .ok .ignorable ↔
      ∃ words ∈ ([["SET"], ["CALL"], ["CREATE", "PROCEDURE"], ["DROP", "PROCEDURE"],
        ["CREATE", "FULLTEXT", "INDEX"]] : List (List Text)), Leads words (significant ts)) ∧
    (classify ts = .ok .alterAddFulltextKey ↔ AddsFulltextKey (significant ts)) := by
  refine ⟨fun us h => ofSignificant_resembles h, classify_refusing, ?_, ?_⟩
  · change ofSignificant (significant ts) = .ok .ignorable ↔
      ∃ words ∈ ignorableStatements, Leads words (significant ts)
    have hsequences : ∀ words ∈ ignorableStatements, words.length ≤ 3 ∧
        ¬ words <+: ["CREATE".toList, "DEFINER"] ∧ ∀ word ∈ words, word.head? ≠ some '@' := by
      decide
    rw [ofSignificant_ignorable_iff]
    constructor
    · rintro ⟨deciding, hdeciding, words, hwords, hprefix⟩
      obtain ⟨hlength, hmore, hhead⟩ := hsequences words hwords
      exact ⟨words, hwords,
        (exists_decidingWords_iff hlength hmore hhead).1 ⟨deciding, hdeciding, hprefix⟩⟩
    · rintro ⟨words, hwords, hleads⟩
      obtain ⟨hlength, hmore, hhead⟩ := hsequences words hwords
      obtain ⟨deciding, hdeciding, hprefix⟩ :=
        (exists_decidingWords_iff hlength hmore hhead).2 hleads
      exact ⟨deciding, hdeciding, words, hwords, hprefix⟩
  · exact ofSignificant_addsFulltextKey_iff

/-- A definer is looked through with the parentheses of `CURRENT_USER`, but with those of no other
user. -/
example :
    passes (· == .ignorable)
      (tokenize "CREATE DEFINER = current_user()@'%' PROCEDURE p () END" >>= classify) = true ∧
    passes (fun _ => true)
      (tokenize "CREATE DEFINER = root()@'%' PROCEDURE p () END" >>= classify) = false := by
  decide +kernel

end StatementKind

end Restate
