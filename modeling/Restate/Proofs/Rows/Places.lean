import Restate.Proofs.Moved
import Restate.RowStatement

/-!
# Rows are restated without regard to places

Once the literals of a statement are bound, only the kinds and the texts of its tokens count. Main
statement: a statement on rows becomes the same text when its tokens lose their offsets
(`restateRows_unplaced`).
-/

namespace Restate

variable {functions : Fields FunctionRule}

theorem closingFrom_unplaced (depth : Int) (tokens : List Token) :
    closingFrom depth (tokens.map Token.unplaced) = closingFrom depth tokens :=
  closingFrom_moved (fun _ => 0) depth tokens

theorem callBody?_unplaced (tokens : List Token) :
    callBody? (tokens.map Token.unplaced) = (callBody? tokens).map (List.map Token.unplaced) := by
  induction tokens with
  | nil => rfl
  | cons t tokens ih =>
      cases ht : t.isTrivia with
      | true => simpa [callBody?, ht] using ih
      | false =>
          have hunplaced : t.unplaced.isTrivia = false := ht
          have hopen : t.unplaced.isPunct "(" = t.isPunct "(" := rfl
          unfold callBody?
          rw [List.map_cons, List.dropWhile_cons_of_neg (by simp [hunplaced]),
            List.dropWhile_cons_of_neg (by simp [ht])]
          dsimp only
          rw [hopen]
          cases t.isPunct "(" with
          | true => rfl
          | false => rfl

theorem call?_unplaced (functions : Fields FunctionRule) (previous : Option Token) (t : Token)
    (rest : List Token) :
    call? functions (previous.map Token.unplaced) t.unplaced (rest.map Token.unplaced) =
      (call? functions previous t rest).map
        fun (rule, body) => (rule, body.map Token.unplaced) := by
  have hprevious : mayCall (previous.map Token.unplaced) = mayCall previous := by
    cases previous with
    | none => rfl
    | some p => simp [mayCall]
  unfold call?
  rw [hprevious, callBody?_unplaced, Token.unplaced_kind, Token.unplaced_upper]
  by_cases hmay : t.kind.isBare ∧ mayCall previous
  · rw [if_pos hmay, if_pos hmay]
    cases functions.get? t.upper with
    | none => rfl
    | some rule => simp [Option.map_map, Function.comp_def]
  · rw [if_neg hmay, if_neg hmay]
    rfl

theorem restatePieces_nil (previous : Option Token) :
    restatePieces functions previous [] = .ok [] := by
  rw [restatePieces]

theorem restatePieces_token {previous : Option Token} {t : Token} {rest : List Token}
    (hcall : call? functions previous t rest = none) :
    restatePieces functions previous (t :: rest) =
      (restatePieces functions (if t.isTrivia then previous else some t) rest).map
        (some (plainPiece t) :: ·) := by
  rw [restatePieces]
  split
  · rfl
  · next hsome => simp [hcall] at hsome

theorem restatePieces_open {previous : Option Token} {t : Token} {rest body : List Token}
    {rule : FunctionRule} (hcall : call? functions previous t rest = some (rule, body))
    (hclose : closingFrom 1 body = none) :
    restatePieces functions previous (t :: rest) = .error (.refuse .unbalancedParentheses) := by
  rw [restatePieces]
  split
  · next hnone => simp [hcall] at hnone
  · next hsome =>
      rw [hcall] at hsome
      cases hsome
      rw [hclose]

theorem restatePieces_call {previous : Option Token} {t : Token} {rest body : List Token}
    {rule : FunctionRule} {n : Nat} (hcall : call? functions previous t rest = some (rule, body))
    (hclose : closingFrom 1 body = some n) :
    restatePieces functions previous (t :: rest) = (do
      let args ← joinPieces (← restatePieces functions none (body.take n))
      let piece ← rule.apply (Text.strip args)
      let more ← restatePieces functions body[n]? (body.drop (n + 1))
      return piece :: more) := by
  rw [restatePieces]
  split
  · next hnone => simp [hcall] at hnone
  · next hsome =>
      rw [hcall] at hsome
      cases hsome
      rw [hclose]

theorem plainPiece_unplaced (t : Token) : plainPiece t.unplaced = plainPiece t :=
  rfl

theorem restatePieces_unplaced (functions : Fields FunctionRule) (previous : Option Token)
    (tokens : List Token) :
    restatePieces functions (previous.map Token.unplaced) (tokens.map Token.unplaced) =
      restatePieces functions previous tokens := by
  fun_induction restatePieces functions previous tokens with
  | case1 => exact restatePieces_nil _
  | case2 previous t rest hcall ih =>
      have hcall' : call? functions (previous.map Token.unplaced) t.unplaced
          (rest.map Token.unplaced) = none := by
        rw [call?_unplaced, hcall]
        rfl
      rw [List.map_cons, restatePieces_token hcall', plainPiece_unplaced, Token.unplaced_isTrivia]
      cases ht : t.isTrivia with
      | true =>
          simp only [ht, dite_true, if_true] at ih ⊢
          rw [ih]
          rfl
      | false =>
          simp only [ht, Bool.false_eq_true, dite_false, if_false] at ih ⊢
          rw [← ih]
          rfl
  | case3 previous t rest rule body hcall hclose =>
      have hcall' := call?_unplaced functions previous t rest
      rw [hcall] at hcall'
      exact restatePieces_open hcall' (by rw [closingFrom_unplaced, hclose])
  | case4 previous t rest rule body hcall n hclose ihargs ihmore =>
      have hcall' := call?_unplaced functions previous t rest
      rw [hcall] at hcall'
      rw [List.map_cons, restatePieces_call hcall' (by rw [closingFrom_unplaced, hclose]),
        ← List.map_take, ← List.map_drop, List.getElem?_map, ihmore]
      rw [Option.map_none] at ihargs
      rw [ihargs]

theorem orIgnore_unplaced (kind : StatementKind) (tokens : List Token) :
    orIgnore kind (tokens.map Token.unplaced) = (orIgnore kind tokens).map Token.unplaced := by
  have hchange : ∀ (n : Nat) (tokens : List Token),
      changeSignificant (fun t => { t with text := "OR IGNORE" }) n (tokens.map Token.unplaced) =
        (changeSignificant (fun t => { t with text := "OR IGNORE" }) n tokens).map
          Token.unplaced := by
    intro n tokens
    induction tokens generalizing n with
    | nil => rfl
    | cons t tokens ih =>
        have hunplaced : t.unplaced.isTrivia = t.isTrivia := rfl
        rw [List.map_cons, changeSignificant.eq_def, changeSignificant.eq_def _ _ (t :: tokens)]
        dsimp only
        rw [hunplaced]
        cases t.isTrivia with
        | true => simp only [if_true, List.map_cons, ih]
        | false =>
            cases n with
            | zero => rfl
            | succ n => simp only [Bool.false_eq_true, if_false, List.map_cons, ih]
  unfold orIgnore
  rw [significant_unplaced, List.getElem?_map]
  cases kind with
  | insert =>
      cases (significant tokens)[1]? with
      | none => rfl
      | some second =>
          have hword : second.unplaced.isWord ["IGNORE"] = second.isWord ["IGNORE"] := rfl
          simp only [Option.map_some]
          rw [hword]
          cases second.isWord ["IGNORE"] with
          | true => exact hchange 1 tokens
          | false => rfl
  | _ => rfl

/-- A statement on rows becomes the same text wherever its tokens stand. -/
theorem restateRows_unplaced (functions : Fields FunctionRule) (kind : StatementKind)
    (tokens : List Token) :
    restateRows functions kind (tokens.map Token.unplaced) = restateRows functions kind tokens := by
  have hduplicates : handlesDuplicates (tokens.map Token.unplaced) = handlesDuplicates tokens := by
    unfold handlesDuplicates
    rw [significant_unplaced, List.map_map]
    rfl
  unfold restateRows restateTokens
  rw [hduplicates, orIgnore_unplaced]
  have := restatePieces_unplaced functions none (orIgnore kind tokens)
  rw [Option.map_none] at this
  rw [this]

/-- Tokens that differ in their places only become the same text. -/
theorem restateRows_congr (functions : Fields FunctionRule) (kind : StatementKind)
    {ts us : List Token} (h : ts.map Token.unplaced = us.map Token.unplaced) :
    restateRows functions kind ts = restateRows functions kind us := by
  rw [← restateRows_unplaced, h, restateRows_unplaced]

end Restate
