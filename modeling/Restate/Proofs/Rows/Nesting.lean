import Restate.Proofs.Parens
import Restate.Proofs.Rows.Placeholders

/-!
# Calls in the tree of parentheses

A list of tokens is a tree: a parenthesis that is closed makes a group with what it encloses, and
every other token stands alone. Main statement: a statement on rows is restated by recursion over
its tree, where each word is judged by the tokens around it in the whole statement, and it is
refused just if the parenthesis of a call stays open (`restateTokens_nesting`).
-/

namespace Restate

section Calls

/-- The rule of the function that a word calls: its name has one, the next significant token opens a
parenthesis, and the one before neither introduces a table nor is a point. -/
def calledRule? (functions : Fields FunctionRule) (previous : Option Token) (t : Token)
    (rest : List Token) : Option FunctionRule :=
  if t.kind.isBare ∧ mayCall previous ∧ (significant rest).head?.any (·.isPunct "(") then
    functions.get? t.upper
  else none

/-- The parenthesis of a call stays open. -/
def HasOpenCall (functions : Fields FunctionRule) (tokens : List Token) : Prop :=
  ∃ before t rest, tokens = before ++ t :: rest ∧
    (calledRule? functions (significant before).getLast? t rest).isSome ∧
    closingFrom 0 (rest.dropWhile Token.isTrivia) = none

/-- A format and a replacement are texts; any value can be inserted as a name. -/
def FunctionRule.holdsText : FunctionRule → Bool
  | .strftime (.str _) | .replace (.str _) | .rename _ => true
  | .strftime _ | .replace _ => false

/-- A call restated, where the rule holds texts. -/
def FunctionRule.restated (args : Text) : FunctionRule → Text
  | .strftime format => "STRFTIME(" ++ quoteString format.inserted ++ "," ++ args ++ ")"
  | .replace replacement => replacement.inserted
  | .rename name => name.inserted ++ "(" ++ args ++ ")"

end Calls

/-- Tokens as a tree of parentheses. -/
inductive Nesting where
  | nil
  | token (t : Token) (rest : Nesting)
  | group (opening : Token) (inner : Nesting) (closing : Token) (rest : Nesting)

namespace Nesting

/-- The tokens in their order. -/
def tokens : Nesting → List Token
  | nil => []
  | token t rest => t :: rest.tokens
  | group opening inner closing rest => opening :: inner.tokens ++ closing :: rest.tokens

/-- The tokens outside all groups. -/
def alone : Nesting → List Token
  | nil => []
  | token t rest => t :: rest.alone
  | group _ _ _ rest => rest.alone

/-- No parenthesis stands outside all groups. -/
def Closed (tree : Nesting) : Prop :=
  ∀ t ∈ tree.alone, t.isPunct "(" = false ∧ t.isPunct ")" = false

/-- Groups stand between parentheses, and no parenthesis stands alone that another one closes. -/
def Nested : Nesting → Prop
  | nil => True
  | token t rest =>
    (t.isPunct "(" = true → ∀ u ∈ rest.alone, u.isPunct ")" = false) ∧ rest.Nested
  | group opening inner closing rest =>
    opening.isPunct "(" = true ∧ closing.isPunct ")" = true ∧ inner.Nested ∧ inner.Closed ∧
      rest.Nested

mutual

/-- The text of a tree, given the significant token before it: a call gives way to what its rule
makes of the stripped text of its arguments, and every other token stands in its place. -/
def restate (functions : Fields FunctionRule) (previous : Option Token) :
    Nesting → Except Error Text
  | nil => return []
  | token t rest =>
    match calledRule? functions previous t rest.tokens with
    | some rule => rest.restateCall functions rule
    | none => do
      let more ← rest.restate functions (if t.isTrivia then previous else some t)
      return plainPiece t ++ more
  | group opening inner closing rest => do
    let within ← inner.restate functions (some opening)
    let more ← rest.restate functions (some closing)
    return plainPiece opening ++ within ++ plainPiece closing ++ more

/-- The text of a call and of what follows it, given the tree behind the function's name. What
stands between the name and its parenthesis goes with the call. -/
def restateCall (functions : Fields FunctionRule) (rule : FunctionRule) :
    Nesting → Except Error Text
  | nil => .error (.refuse .unbalancedParentheses)
  | token t rest =>
    if t.isTrivia then rest.restateCall functions rule
    else .error (.refuse .unbalancedParentheses)
  | group opening inner closing rest => do
    let args ← inner.restate functions (some opening)
    let more ← rest.restate functions (some closing)
    return rule.restated (Text.strip args) ++ more

end

section Tree

theorem balanced_tokens {tree : Nesting} (hnested : tree.Nested) (hclosed : tree.Closed) :
    Balanced tree.tokens := by
  induction tree with
  | nil => exact .nil
  | token t rest ih =>
      obtain ⟨⟨hopen, hclose⟩, hrest⟩ := List.forall_mem_cons.1 hclosed
      exact .token hopen hclose (ih hnested.2 hrest)
  | group opening inner closing rest ihinner ihrest =>
      obtain ⟨hopen, hclose, hinner, hinnerClosed, hrest⟩ := hnested
      exact .group hopen hclose (ihinner hinner hinnerClosed) (ihrest hrest hclosed)

/-- What is balanced is the tree of a group. -/
theorem exists_of_balanced {tokens : List Token} (h : Balanced tokens) :
    ∃ tree : Nesting, tree.Nested ∧ tree.Closed ∧ tree.tokens = tokens := by
  induction h with
  | nil => exact ⟨nil, trivial, List.forall_mem_nil _, rfl⟩
  | @token t rest hopen hclose _ ih =>
      obtain ⟨tree, hnested, hclosed, rfl⟩ := ih
      exact ⟨.token t tree, ⟨fun h => absurd h (ne_true_of_eq_false hopen), hnested⟩,
        List.forall_mem_cons.2 ⟨⟨hopen, hclose⟩, hclosed⟩, rfl⟩
  | @group opening closing inner rest hopen hclose _ _ ihinner ihrest =>
      obtain ⟨within, hinner, hinnerClosed, rfl⟩ := ihinner
      obtain ⟨more, hmore, hmoreClosed, rfl⟩ := ihrest
      exact ⟨.group opening within closing more, ⟨hopen, hclose, hinner, hinnerClosed, hmore⟩,
        hmoreClosed, rfl⟩

/-- A search for the parenthesis that closes passes over a group. -/
theorem closingFrom_group {opening closing : Token} {inner : Nesting} {k : Nat} (hk : 0 < k)
    (hopen : opening.isPunct "(" = true) (hclose : closing.isPunct ")" = true)
    (hinner : inner.Nested) (hclosed : inner.Closed) (tokens : List Token) :
    closingFrom k (opening :: inner.tokens ++ closing :: tokens) = none ↔
      closingFrom k tokens = none := by
  have hgroup : Balanced (opening :: inner.tokens ++ [closing]) :=
    .group hopen hclose (balanced_tokens hinner hclosed) .nil
  have happend := hgroup.closingFrom_append hk tokens
  rw [List.append_assoc, List.singleton_append] at happend
  rw [happend, Option.map_eq_none_iff]

/-- Open parentheses stay open where no parenthesis that closes stands alone. -/
theorem closingFrom_eq_none {tree : Nesting} {k : Nat} (hk : 0 < k) (hnested : tree.Nested)
    (halone : ∀ t ∈ tree.alone, t.isPunct ")" = false) : closingFrom k tree.tokens = none := by
  induction tree generalizing k with
  | nil => rfl
  | token t rest ih =>
      obtain ⟨ht, hrest⟩ := List.forall_mem_cons.1 halone
      rw [tokens]
      cases hopen : t.isPunct "(" with
      | true =>
          have hdeeper := ih (Nat.succ_pos k) hnested.2 hrest
          rw [closingFrom_opening hopen, Option.map_eq_none_iff]
          exact_mod_cast hdeeper
      | false => rw [closingFrom_other hopen ht, ih hk hnested.2 hrest, Option.map_none]
  | group opening inner closing rest _ ihrest =>
      obtain ⟨hopen, hclose, hinner, hclosed, hrest⟩ := hnested
      rw [tokens, closingFrom_group hk hopen hclose hinner hclosed]
      exact ihrest hk hrest halone

/-- A parenthesis before the tree stays open just if none stands alone in it that closes. -/
theorem closingFrom_one_eq_none_iff {tree : Nesting} (hnested : tree.Nested) :
    closingFrom 1 tree.tokens = none ↔ ∀ t ∈ tree.alone, t.isPunct ")" = false := by
  refine ⟨?_, fun halone => closingFrom_eq_none Nat.one_pos hnested halone⟩
  intro h
  induction tree with
  | nil => exact List.forall_mem_nil _
  | token t rest ih =>
      rw [tokens] at h
      rcases paren_cases t with hopen | hclose | ⟨hopen, hclose⟩
      · have ht : t.isPunct ")" = false := not_isPunct_of_isPunct hopen (by decide)
        exact List.forall_mem_cons.2 ⟨ht, hnested.1 hopen⟩
      · rw [closingFrom_closing hclose] at h
        simp at h
      · rw [closingFrom_other hopen hclose, Option.map_eq_none_iff] at h
        exact List.forall_mem_cons.2 ⟨hclose, ih hnested.2 h⟩
  | group opening inner closing rest _ ihrest =>
      obtain ⟨hopen, hclose, hinner, hclosed, hrest⟩ := hnested
      exact ihrest hrest
        ((closingFrom_group Nat.one_pos hopen hclose hinner hclosed rest.tokens).1 h)

theorem exists_nested (tokens : List Token) :
    ∃ tree : Nesting, tree.Nested ∧ tree.tokens = tokens := by
  induction hlength : tokens.length using Nat.strongRecOn generalizing tokens with
  | ind length ih =>
      subst hlength
      cases tokens with
      | nil => exact ⟨nil, trivial, rfl⟩
      | cons t ts =>
          obtain ⟨tree, hnested, htree⟩ := ih ts.length (by simp) ts rfl
          by_cases hopen : t.isPunct "(" = true
          · cases hclosing : closingFrom 1 ts with
            | none =>
                rw [← htree, closingFrom_one_eq_none_iff hnested] at hclosing
                exact ⟨token t tree, ⟨fun _ => hclosing, hnested⟩, by rw [Nesting.tokens, htree]⟩
            | some n =>
                obtain ⟨inner, closing, rest, rfl, hinner, hclose, -⟩ :=
                  closingFrom_one_iff.1 hclosing
                obtain ⟨within, hwithin, hclosed, rfl⟩ := exists_of_balanced hinner
                obtain ⟨more, hmore, rfl⟩ := ih rest.length (by simp; omega) rest rfl
                exact ⟨group t within closing more, ⟨hopen, hclose, hwithin, hclosed, hmore⟩, rfl⟩
          · exact ⟨token t tree, ⟨fun h => absurd h hopen, hnested⟩, by rw [Nesting.tokens, htree]⟩

/-- The tokens have one tree only. -/
theorem Nested.unique {tree other : Nesting} (hnested : tree.Nested) (hother : other.Nested)
    (h : tree.tokens = other.tokens) : tree = other := by
  -- a parenthesis cannot stand alone in one tree and begin a group in the other
  have hclash : ∀ {t closing : Token} {rest inner more : Nesting}, (token t rest).Nested →
      (group t inner closing more).Nested →
        rest.tokens ≠ inner.tokens ++ closing :: more.tokens := by
    intro t closing rest inner more halone hgroup heq
    obtain ⟨hopen, hclose, hinner, hclosed, -⟩ := hgroup
    have hnone := closingFrom_eq_none Nat.one_pos halone.2 (halone.1 hopen)
    have hsome := (balanced_tokens hinner hclosed).closingFrom_one hclose more.tokens
    rw [heq] at hnone
    simp [hsome] at hnone
  induction tree generalizing other with
  | nil =>
      cases other with
      | nil => rfl
      | token | group => simp [tokens] at h
  | token t rest ih =>
      cases other with
      | nil => simp [tokens] at h
      | token u more =>
          obtain ⟨rfl, hrest⟩ := List.cons.inj h
          rw [ih hnested.2 hother.2 hrest]
      | group opening inner closing more =>
          obtain ⟨rfl, hrest⟩ := List.cons.inj h
          exact (hclash hnested hother hrest).elim
  | group opening inner closing rest ihinner ihrest =>
      cases other with
      | nil => simp [tokens] at h
      | token u more =>
          obtain ⟨rfl, hrest⟩ := List.cons.inj h
          exact (hclash hother hnested hrest.symm).elim
      | group opening' inner' closing' rest' =>
          obtain ⟨rfl, heq⟩ := List.cons.inj h
          obtain ⟨-, hclose, hinner, hclosed, hrest⟩ := hnested
          obtain ⟨-, hclose', hinner', hclosed', hrest'⟩ := hother
          have heq : inner.tokens ++ closing :: rest.tokens =
              inner'.tokens ++ closing' :: rest'.tokens := heq
          have hat := (balanced_tokens hinner hclosed).closingFrom_one hclose rest.tokens
          have hat' := (balanced_tokens hinner' hclosed').closingFrom_one hclose' rest'.tokens
          have hlength : inner.tokens.length = inner'.tokens.length := by
            rw [heq, hat'] at hat
            exact (Option.some.inj hat).symm
          obtain ⟨hinnerEq, heq⟩ := List.append_inj heq hlength
          obtain ⟨rfl, hrestEq⟩ := List.cons.inj heq
          rw [ihinner hinner hinner' hinnerEq, ihrest hrest hrest' hrestEq]

end Tree

end Nesting

section Steps

variable {functions : Fields FunctionRule} {previous : Option Token} {t : Token}
  {tokens rest body : List Token} {rule : FunctionRule}

theorem callBody?_trivia (ht : t.isTrivia = true) : callBody? (t :: tokens) = callBody? tokens := by
  unfold callBody?
  rw [List.dropWhile_cons_of_pos ht]

theorem callBody?_significant (ht : t.isTrivia = false) :
    callBody? (t :: tokens) = if t.isPunct "(" then some tokens else none := by
  unfold callBody?
  rw [List.dropWhile_cons_of_neg (by simp [ht])]

theorem isSome_callBody? (tokens : List Token) :
    (callBody? tokens).isSome = (significant tokens).head?.any (·.isPunct "(") := by
  induction tokens with
  | nil => rfl
  | cons t tokens ih =>
      cases ht : t.isTrivia with
      | true =>
          rw [callBody?_trivia ht, ih]
          simp [significant, ht]
      | false =>
          have hhead : (significant (t :: tokens)).head? = some t := by simp [significant, ht]
          rw [callBody?_significant ht, hhead, Option.any_some]
          cases t.isPunct "(" with
          | true => rfl
          | false => rfl

/-- A parenthesis that closes does not begin the body of a call. -/
theorem callBody?_append {after : List Token} (hafter : ∀ u ∈ after.head?, u.isPunct ")" = true) :
    callBody? (tokens ++ after) = (callBody? tokens).map (· ++ after) := by
  induction tokens with
  | nil =>
      cases after with
      | nil => rfl
      | cons closing more =>
          have hclose := hafter closing rfl
          rw [List.nil_append, callBody?_significant (not_isTrivia_of_isPunct hclose), if_neg
            (ne_true_of_eq_false (not_isPunct_of_isPunct hclose (by decide)))]
          rfl
  | cons t tokens ih =>
      rw [List.cons_append]
      cases ht : t.isTrivia with
      | true => rw [callBody?_trivia ht, callBody?_trivia ht, ih]
      | false =>
          rw [callBody?_significant ht, callBody?_significant ht]
          split
          · rfl
          · rfl

theorem calledRule?_eq (functions : Fields FunctionRule) (previous : Option Token) (t : Token)
    (rest : List Token) :
    calledRule? functions previous t rest = (call? functions previous t rest).map Prod.fst := by
  unfold calledRule? call?
  rw [← isSome_callBody?]
  cases hbody : callBody? rest with
  | none => simp
  | some body =>
      by_cases hmay : t.kind.isBare ∧ mayCall previous
      · rw [if_pos hmay, if_pos ⟨hmay.1, hmay.2, rfl⟩]
        cases functions.get? t.upper with
        | none => rfl
        | some rule => rfl
      · rw [if_neg hmay, if_neg fun h => hmay ⟨h.1, h.2.1⟩]
        rfl

theorem call?_append {after : List Token} (hafter : ∀ u ∈ after.head?, u.isPunct ")" = true) :
    call? functions previous t (rest ++ after) =
      (call? functions previous t rest).map fun (rule, body) => (rule, body ++ after) := by
  unfold call?
  rw [callBody?_append hafter]
  split
  · cases functions.get? t.upper with
    | none => rfl
    | some rule => simp [Function.comp_def]
  · rfl

theorem get?_of_call? (hcall : call? functions previous t rest = some (rule, body)) :
    functions.get? t.upper = some rule ∧ callBody? rest = some body := by
  unfold call? at hcall
  split at hcall
  · obtain ⟨rule', hget, hbody⟩ := Option.bind_eq_some_iff.1 hcall
    obtain ⟨body', hbody, heq⟩ := Option.map_eq_some_iff.1 hbody
    cases heq
    exact ⟨hget, hbody⟩
  · simp at hcall

theorem call?_of_isPunct {mark : Text} (h : t.isPunct mark = true) :
    call? functions previous t rest = none :=
  if_neg fun hmay => by simp [not_isBare_of_isPunct h] at hmay

theorem mayCall_opening (h : t.isPunct "(" = true) : mayCall none = mayCall (some t) := by
  have hpoint : t.isPunct "." = false := not_isPunct_of_isPunct h (by decide)
  rw [mayCall, mayCall, Token.isWord, not_isBare_of_isPunct h, hpoint]
  rfl

theorem joinPieces_cons (text : Text) (pieces : List Piece) :
    joinPieces (some text :: pieces) = (do return text ++ (← joinPieces pieces)) := by
  unfold joinPieces
  rw [List.mapM_cons]
  cases pieces.mapM id with
  | none => rfl
  | some texts => rfl

theorem FunctionRule.apply_eq (h : rule.holdsText = true) (args : Text) :
    rule.apply args = pure (some (rule.restated args)) := by
  unfold FunctionRule.holdsText at h
  split at h
  · rfl
  · rfl
  · rfl
  · simp at h
  · simp at h

theorem FunctionRule.holdsText_of_isSilent (h : rule.isSilent = true) : rule.holdsText = true := by
  unfold FunctionRule.isSilent at h
  split at h
  · rfl
  · simp at h
  · rfl
  · simp at h
  · rfl

/-- The text of a part of a statement, given the significant token before it. -/
def restateFrom (functions : Fields FunctionRule) (previous : Option Token) (tokens : List Token) :
    Except Error Text := do
  joinPieces (← restatePieces functions previous tokens)

/-- The text of a call and of what follows it, given the tokens behind its parenthesis. -/
def restateCalled (functions : Fields FunctionRule) (rule : FunctionRule) (body : List Token) :
    Except Error Text :=
  match closingFrom 1 body with
  | none => .error (.refuse .unbalancedParentheses)
  | some n => do
    let args ← restateFrom functions none (body.take n)
    let more ← restateFrom functions body[n]? (body.drop (n + 1))
    return rule.restated (Text.strip args) ++ more

theorem restateFrom_nil : restateFrom functions previous [] = return [] := by
  rw [restateFrom, restatePieces_nil]
  rfl

theorem restateFrom_token (hcall : call? functions previous t rest = none) :
    restateFrom functions previous (t :: rest) = (do
      let more ← restateFrom functions (if t.isTrivia then previous else some t) rest
      return plainPiece t ++ more) := by
  unfold restateFrom
  rw [restatePieces_token hcall]
  cases restatePieces functions (if t.isTrivia then previous else some t) rest with
  | error e => rfl
  | ok pieces => exact joinPieces_cons (plainPiece t) pieces

theorem restateFrom_call (hcall : call? functions previous t rest = some (rule, body))
    (hrule : rule.holdsText = true) :
    restateFrom functions previous (t :: rest) = restateCalled functions rule body := by
  unfold restateCalled
  cases hclose : closingFrom 1 body with
  | none =>
      rw [restateFrom, restatePieces_open hcall hclose]
      rfl
  | some n =>
      unfold restateFrom
      rw [restatePieces_call hcall hclose]
      simp only [bind_assoc, pure_bind, FunctionRule.apply_eq hrule, joinPieces_cons]

/-- Where the parenthesis of a call is closed, its arguments and what stands behind are restated
apart. -/
theorem restateCalled_closed {inner more : List Token} {closing : Token} (hinner : Balanced inner)
    (hclose : closing.isPunct ")" = true) :
    restateCalled functions rule (inner ++ closing :: more) = (do
      let args ← restateFrom functions none inner
      let more ← restateFrom functions (some closing) more
      return rule.restated (Text.strip args) ++ more) := by
  have htake : (inner ++ closing :: more).take inner.length = inner := List.take_left' rfl
  have hat : (inner ++ closing :: more)[inner.length]? = some closing := by simp
  have hdrop : (inner ++ closing :: more).drop (inner.length + 1) = more := by simp
  rw [restateCalled, hinner.closingFrom_one hclose]
  dsimp only
  rw [htake, hat, hdrop]

theorem restateFrom_punct {mark : Text} (h : t.isPunct mark = true) :
    restateFrom functions previous (t :: rest) = (do
      let more ← restateFrom functions (some t) rest
      return plainPiece t ++ more) := by
  rw [restateFrom_token (call?_of_isPunct h), not_isTrivia_of_isPunct h]
  rfl

/-- What begins with a parenthesis that closes does not depend on what stands before. -/
theorem restateFrom_closing (h : ∀ u ∈ tokens.head?, u.isPunct ")" = true) :
    restateFrom functions previous tokens = restateFrom functions none tokens := by
  cases tokens with
  | nil => rw [restateFrom_nil, restateFrom_nil]
  | cons closing more =>
      have hclose := h closing rfl
      rw [restateFrom_punct hclose, restateFrom_punct hclose]

/-- Of the token before, only whether a call may follow counts. -/
theorem restateFrom_congr {other : Option Token} (h : mayCall previous = mayCall other) :
    restateFrom functions previous tokens = restateFrom functions other tokens := by
  induction tokens with
  | nil => rw [restateFrom_nil, restateFrom_nil]
  | cons t tokens ih =>
      have hcall : call? functions previous t tokens = call? functions other t tokens := by
        unfold call?
        rw [h]
      cases hsome : call? functions other t tokens with
      | none =>
          rw [restateFrom_token hsome, restateFrom_token (hcall.trans hsome)]
          split
          · rw [ih]
          · rfl
      | some called =>
          unfold restateFrom
          cases hclose : closingFrom 1 called.2 with
          | none =>
              rw [restatePieces_open hsome hclose, restatePieces_open (hcall.trans hsome) hclose]
          | some n =>
              rw [restatePieces_call hsome hclose, restatePieces_call (hcall.trans hsome) hclose]

end Steps

section Nested

variable {functions : Fields FunctionRule}
  (hrules : ∀ name rule, functions.get? name = some rule → rule.holdsText = true)
include hrules

/-- A tree is restated as its tokens are, where nothing stands behind it, or a parenthesis that
closes the one around it. -/
theorem restateFrom_append {tree : Nesting} (hnested : tree.Nested) (after : List Token)
    (hafter : ∀ t ∈ after.head?, t.isPunct ")" = true) (hclosed : after = [] ∨ tree.Closed) :
    (∀ previous, restateFrom functions previous (tree.tokens ++ after) = (do
      let text ← tree.restate functions previous
      let more ← restateFrom functions none after
      return text ++ more)) ∧
    ∀ rule body, callBody? tree.tokens = some body → rule.holdsText = true →
      restateCalled functions rule (body ++ after) = (do
        let text ← tree.restateCall functions rule
        let more ← restateFrom functions none after
        return text ++ more) := by
  induction tree generalizing after with
  | nil =>
      refine ⟨fun previous => ?_, fun rule body hbody => ?_⟩
      · rw [Nesting.tokens, List.nil_append, Nesting.restate, restateFrom_closing hafter]
        simp only [pure_bind, List.nil_append, bind_pure]
      · simp [Nesting.tokens, callBody?] at hbody
  | token t rest ih =>
      have hrest : after = [] ∨ rest.Closed :=
        hclosed.imp_right fun h => (List.forall_mem_cons.1 h).2
      obtain ⟨ihplain, ihcalled⟩ := ih hnested.2 after hafter hrest
      refine ⟨fun previous => ?_, fun rule body hbody hrule => ?_⟩
      · have hcall : call? functions previous t (rest.tokens ++ after) = _ :=
          call?_append hafter
        rw [Nesting.tokens, List.cons_append, Nesting.restate, calledRule?_eq]
        cases hsome : call? functions previous t rest.tokens with
        | none =>
            rw [hsome] at hcall
            rw [restateFrom_token hcall, ihplain]
            simp only [Option.map_none, bind_assoc, pure_bind, List.append_assoc]
        | some called =>
            obtain ⟨rule, body⟩ := called
            obtain ⟨hget, hbody⟩ := get?_of_call? hsome
            rw [hsome] at hcall
            rw [restateFrom_call hcall (hrules _ _ hget)]
            exact ihcalled rule body hbody (hrules _ _ hget)
      · rw [Nesting.tokens] at hbody
        rw [Nesting.restateCall]
        cases ht : t.isTrivia with
        | true =>
            rw [callBody?_trivia ht] at hbody
            exact ihcalled rule body hbody hrule
        | false =>
            rw [callBody?_significant ht] at hbody
            split at hbody
            · next hopen =>
                -- the parenthesis stands alone, so it is not closed, and nothing stands behind
                cases hbody
                have hnone : closingFrom 1 rest.tokens = none :=
                  Nesting.closingFrom_eq_none Nat.one_pos hnested.2 (hnested.1 hopen)
                rcases hclosed with rfl | hclosed
                · rw [List.append_nil, restateCalled, hnone]
                  rfl
                · exact absurd hopen (ne_true_of_eq_false (List.forall_mem_cons.1 hclosed).1.1)
            · simp at hbody
  | group opening inner closing rest ihinner ihrest =>
      obtain ⟨hopen, hclose, hinner, hinnerClosed, hrest⟩ := hnested
      obtain ⟨ihrest, -⟩ := ihrest hrest after hafter hclosed
      refine ⟨fun previous => ?_, fun rule body hbody hrule => ?_⟩
      · have hwithin := (ihinner hinner (closing :: (rest.tokens ++ after))
          (by simpa using hclose) (.inr hinnerClosed)).1 (some opening)
        have htokens : (Nesting.group opening inner closing rest).tokens ++ after =
            opening :: (inner.tokens ++ closing :: (rest.tokens ++ after)) := by
          simp [Nesting.tokens]
        rw [htokens, restateFrom_punct hopen, hwithin, restateFrom_punct hclose, ihrest,
          Nesting.restate]
        simp only [bind_assoc, pure_bind, List.append_assoc]
      · have hbodyEq : inner.tokens ++ closing :: rest.tokens = body := by
          rw [Nesting.tokens, List.cons_append,
            callBody?_significant (not_isTrivia_of_isPunct hopen), if_pos hopen] at hbody
          exact Option.some.inj hbody
        have hargs := (ihinner hinner [] (by simp) (.inl rfl)).1 (some opening)
        rw [List.append_nil, restateFrom_nil] at hargs
        rw [← hbodyEq, List.append_assoc, List.cons_append,
          restateCalled_closed (Nesting.balanced_tokens hinner hinnerClosed) hclose,
          restateFrom_congr (mayCall_opening hopen), hargs, ihrest, Nesting.restateCall]
        simp only [bind_assoc, pure_bind, List.append_assoc, List.append_nil]

end Nested

section Open

variable {functions : Fields FunctionRule} {previous : Option Token} {t : Token}
  {tokens rest body : List Token}

/-- The parenthesis of a call stays open, given the significant token before the tokens. -/
def OpenCall (functions : Fields FunctionRule) (previous : Option Token) (tokens : List Token) :
    Prop :=
  ∃ before t rest rule body, tokens = before ++ t :: rest ∧
    call? functions ((significant before).getLast?.or previous) t rest = some (rule, body) ∧
    closingFrom 1 body = none

theorem exists_of_callBody? (h : callBody? tokens = some body) :
    ∃ trivia opening, tokens = trivia ++ opening :: body ∧ opening.isPunct "(" = true ∧
      ∀ u ∈ trivia, u.isTrivia = true := by
  induction tokens with
  | nil => simp [callBody?] at h
  | cons t tokens ih =>
      cases ht : t.isTrivia with
      | true =>
          rw [callBody?_trivia ht] at h
          obtain ⟨trivia, opening, rfl, hopen, htrivia⟩ := ih h
          exact ⟨t :: trivia, opening, rfl, hopen, List.forall_mem_cons.2 ⟨ht, htrivia⟩⟩
      | false =>
          rw [callBody?_significant ht] at h
          split at h
          · next hopen =>
              cases h
              exact ⟨[], t, rfl, hopen, List.forall_mem_nil _⟩
          · simp at h

theorem hasOpenCall_iff : HasOpenCall functions tokens ↔ OpenCall functions none tokens := by
  have hclosing : ∀ {rest body : List Token}, callBody? rest = some body →
      (closingFrom 0 (rest.dropWhile Token.isTrivia) = none ↔ closingFrom 1 body = none) := by
    intro rest body hbody
    obtain ⟨trivia, opening, rfl, hopen, htrivia⟩ := exists_of_callBody? hbody
    rw [List.dropWhile_append_of_pos htrivia,
      List.dropWhile_cons_of_neg (by simp [not_isTrivia_of_isPunct hopen]),
      closingFrom_opening hopen, Option.map_eq_none_iff]
    rfl
  unfold HasOpenCall OpenCall
  simp only [Option.or_none, calledRule?_eq, Option.isSome_map]
  constructor
  · rintro ⟨before, t, rest, htokens, hsome, hnone⟩
    obtain ⟨⟨rule, body⟩, hcall⟩ := Option.isSome_iff_exists.1 hsome
    exact ⟨before, t, rest, rule, body, htokens, hcall, (hclosing (get?_of_call? hcall).2).1 hnone⟩
  · rintro ⟨before, t, rest, rule, body, htokens, hcall, hnone⟩
    exact ⟨before, t, rest, htokens, by simp [hcall], (hclosing (get?_of_call? hcall).2).2 hnone⟩

theorem openCall_cons : OpenCall functions previous (t :: rest) ↔
    (∃ rule body, call? functions previous t rest = some (rule, body) ∧
      closingFrom 1 body = none) ∨
    OpenCall functions (if t.isTrivia then previous else some t) rest := by
  have hbefore : ∀ before, (significant (t :: before)).getLast?.or previous =
      (significant before).getLast?.or (if t.isTrivia then previous else some t) := by
    intro before
    cases ht : t.isTrivia with
    | true => simp [significant, ht]
    | false =>
        have hcons : significant (t :: before) = t :: significant before := by
          simp [significant, ht]
        rw [hcons, List.getLast?_cons]
        cases (significant before).getLast? with
        | none => rfl
        | some u => rfl
  constructor
  · rintro ⟨before, u, more, rule, body, heq, hcall, hnone⟩
    cases before with
    | nil =>
        obtain ⟨rfl, rfl⟩ := List.cons.inj heq
        exact .inl ⟨rule, body, hcall, hnone⟩
    | cons v before =>
        obtain ⟨rfl, rfl⟩ := List.cons.inj heq
        rw [hbefore] at hcall
        exact .inr ⟨before, u, more, rule, body, rfl, hcall, hnone⟩
  · rintro (⟨rule, body, hcall, hnone⟩ | ⟨before, u, more, rule, body, rfl, hcall, hnone⟩)
    · exact ⟨[], t, rest, rule, body, rfl, hcall, hnone⟩
    · rw [← hbefore] at hcall
      exact ⟨t :: before, u, more, rule, body, rfl, hcall, hnone⟩

theorem OpenCall.hasOpen (h : OpenCall functions previous tokens) : HasOpen tokens := by
  obtain ⟨before, t, rest, rule, body, rfl, hcall, hnone⟩ := h
  obtain ⟨trivia, opening, rfl, hopen, -⟩ := exists_of_callBody? (get?_of_call? hcall).2
  exact ⟨before ++ t :: trivia, opening, body, by simp, hopen, hnone⟩

/-- No call stays open before a parenthesis that closes, where no parenthesis does. -/
theorem openCall_append {front more : List Token} {closing : Token}
    (hclose : closing.isPunct ")" = true) (hfront : ¬ HasOpen (front ++ [closing])) :
    OpenCall functions previous (front ++ closing :: more) ↔
      OpenCall functions (some closing) more := by
  induction front generalizing previous with
  | nil =>
      rw [List.nil_append, openCall_cons, call?_of_isPunct hclose, not_isTrivia_of_isPunct hclose]
      simp
  | cons u front ih =>
      have hrest : ¬ HasOpen (front ++ [closing]) := fun h => hfront (h.cons u)
      rw [List.cons_append, openCall_cons, ih hrest]
      refine or_iff_right ?_
      rintro ⟨rule, body, hcall, hnone⟩
      rw [call?_append (by simpa using hclose)] at hcall
      obtain ⟨⟨rule', inner⟩, hinner, heq⟩ := Option.map_eq_some_iff.1 hcall
      cases heq
      obtain ⟨trivia, opening, rfl, hopen, -⟩ := exists_of_callBody? (get?_of_call? hinner).2
      refine hfront ⟨u :: trivia, opening, inner ++ [closing], by simp, hopen, ?_⟩
      cases hsome : closingFrom 1 (inner ++ [closing]) with
      | none => rfl
      | some n =>
          have hlong := closingFrom_append_of_some hsome more
          rw [List.append_assoc] at hlong
          simp [hnone] at hlong

/-- A call that is closed leaves what stands behind it. -/
theorem openCall_call {inner more : List Token} {closing : Token} {rule : FunctionRule}
    (hcall : call? functions previous t rest = some (rule, inner ++ closing :: more))
    (hinner : Balanced inner) (hclose : closing.isPunct ")" = true) :
    OpenCall functions previous (t :: rest) ↔ OpenCall functions (some closing) more := by
  have hplain : ∀ mark, t.isPunct mark = false := by
    intro mark
    cases hmark : t.isPunct mark with
    | false => rfl
    | true => simp [call?_of_isPunct hmark] at hcall
  obtain ⟨trivia, opening, rfl, hopen, htrivia⟩ := exists_of_callBody? (get?_of_call? hcall).2
  have hgroup : Balanced (opening :: inner ++ [closing]) := .group hopen hclose hinner .nil
  have hfront : Balanced (t :: (trivia ++ (opening :: inner ++ [closing]))) :=
    .token (hplain _) (hplain _) (.trivia_append htrivia hgroup)
  have htokens : t :: (trivia ++ opening :: (inner ++ closing :: more)) =
      (t :: (trivia ++ opening :: inner)) ++ closing :: more := by simp
  rw [htokens]
  apply openCall_append hclose
  simpa using hfront.not_hasOpen

/-- A statement is restated unless a call stays open. -/
theorem restateFrom_openCall
    (hrules : ∀ name rule, functions.get? name = some rule → rule.holdsText = true)
    (previous : Option Token) (tokens : List Token) :
    OpenCall functions previous tokens ∧
        restateFrom functions previous tokens = .error (.refuse .unbalancedParentheses) ∨
      ¬ OpenCall functions previous tokens ∧
        ∃ text, restateFrom functions previous tokens = .ok text := by
  induction hlength : tokens.length using Nat.strongRecOn generalizing previous tokens with
  | ind length ih =>
      subst hlength
      cases tokens with
      | nil =>
          refine .inr ⟨?_, [], restateFrom_nil⟩
          rintro ⟨_ | ⟨_, _⟩, _, _, _, _, heq, -⟩
          · simp at heq
          · simp at heq
      | cons t rest =>
          cases hcall : call? functions previous t rest with
          | none =>
              rw [openCall_cons, restateFrom_token hcall, hcall]
              rcases ih rest.length (by simp) (if t.isTrivia then previous else some t) rest rfl
                with ⟨hopen, herror⟩ | ⟨hclosed, text, htext⟩
              · exact .inl ⟨.inr hopen, by rw [herror]; rfl⟩
              · exact .inr ⟨by simpa using hclosed, plainPiece t ++ text, by rw [htext]; rfl⟩
          | some called =>
              obtain ⟨rule, body⟩ := called
              obtain ⟨hget, hbody⟩ := get?_of_call? hcall
              rw [restateFrom_call hcall (hrules _ _ hget)]
              cases hclosing : closingFrom 1 body with
              | none =>
                  refine .inl ⟨openCall_cons.2 (.inl ⟨rule, body, hcall, hclosing⟩), ?_⟩
                  rw [restateCalled, hclosing]
              | some n =>
                  obtain ⟨inner, closing, more, rfl, hinner, hclose, -⟩ :=
                    closingFrom_one_iff.1 hclosing
                  have hlt := length_callBody_lt hbody
                  simp only [List.length_append, List.length_cons] at hlt
                  -- the arguments are balanced, so no call stays open in them
                  obtain ⟨-, args, hargs⟩ :=
                    (ih inner.length (by simp; omega) none inner rfl).resolve_left
                      fun h => hinner.not_hasOpen h.1.hasOpen
                  rw [restateCalled_closed hinner hclose, openCall_call hcall hinner hclose, hargs]
                  rcases ih more.length (by simp; omega) (some closing) more rfl with
                    ⟨hopen, herror⟩ | ⟨hclosed, text, htext⟩
                  · exact .inl ⟨hopen, by rw [herror]; rfl⟩
                  · exact .inr ⟨hclosed, _, by rw [htext]; rfl⟩

end Open

/-- A statement on rows is restated by recursion over its tree of parentheses, and refused just if
the parenthesis of a call stays open. -/
theorem restateTokens_nesting {functions : Fields FunctionRule}
    (hrules : ∀ name rule, functions.get? name = some rule → rule.holdsText = true)
    (tokens : List Token) :
    ∃ tree : Nesting, (∀ other : Nesting, other.Nested ∧ other.tokens = tokens ↔ other = tree) ∧
      restateTokens functions tokens = tree.restate functions none ∧
      (restateTokens functions tokens = .error (.refuse .unbalancedParentheses) ↔
        HasOpenCall functions tokens) ∧
      ∀ e, restateTokens functions tokens = .error e → e = .refuse .unbalancedParentheses := by
  obtain ⟨tree, hnested, rfl⟩ := Nesting.exists_nested tokens
  refine ⟨tree, ?_, ?_, ?_, ?_⟩
  · intro other
    constructor
    · rintro ⟨hother, heq⟩
      exact hother.unique hnested heq
    · rintro rfl
      exact ⟨hnested, rfl⟩
  · have happend := (restateFrom_append hrules hnested [] (by simp) (.inl rfl)).1 none
    rw [List.append_nil, restateFrom_nil] at happend
    simp only [pure_bind, List.append_nil, bind_pure] at happend
    exact happend
  · rw [hasOpenCall_iff]
    rcases restateFrom_openCall hrules none tree.tokens with
      ⟨hopen, herror⟩ | ⟨hclosed, text, htext⟩
    · exact iff_of_true herror hopen
    · refine iff_of_false ?_ hclosed
      intro herror
      cases herror.symm.trans htext
  · intro e he
    rcases restateFrom_openCall hrules none tree.tokens with ⟨-, herror⟩ | ⟨-, text, htext⟩
    · exact Except.error.inj (he.symm.trans herror)
    · cases he.symm.trans htext

/-- A call among the arguments of a call is restated, and a table with the name of a function is
not. -/
theorem restateTokens_nesting_year :
    ∃ settings tokens, ∃ tree : Nesting, Settings.load .builtIn = .ok settings ∧
      (∀ name rule, settings.functions.get? name = some rule → rule.holdsText = true) ∧
      tokenize "SELECT YEAR /* of */ ( NOW() ), `a` FROM year (b)" = .ok tokens ∧
      tree.Nested ∧ tree.tokens = tokens ∧
      tree.restate settings.functions none =
        .ok "SELECT STRFTIME('%Y',CURRENT_TIMESTAMP), \"a\" FROM year (b)".toList ∧
      ¬ HasOpenCall settings.functions tokens := by
  obtain ⟨settings, hload, htest⟩ := exists_of_passes (show passes (fun settings => passes
      (fun tokens => decide (restateTokens settings.functions tokens =
        .ok "SELECT STRFTIME('%Y',CURRENT_TIMESTAMP), \"a\" FROM year (b)".toList))
      (tokenize "SELECT YEAR /* of */ ( NOW() ), `a` FROM year (b)")) (Settings.load .builtIn)
      = true by decide +kernel)
  obtain ⟨tokens, htokens, htext⟩ := exists_of_passes htest
  have htext := of_decide_eq_true htext
  have hrules : ∀ name rule, settings.functions.get? name = some rule → rule.holdsText = true :=
    fun name rule hget => FunctionRule.holdsText_of_isSilent
      ((Rows.builtIn_silent hload).2 name rule hget)
  obtain ⟨tree, htree, hrestate, hopen, -⟩ := restateTokens_nesting hrules tokens
  obtain ⟨hnested, hsame⟩ := (htree tree).2 rfl
  refine ⟨settings, tokens, tree, hload, hrules, htokens, hnested, hsame, hrestate ▸ htext, ?_⟩
  intro h
  cases (hopen.2 h).symm.trans htext

end Restate
