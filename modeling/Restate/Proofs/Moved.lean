import Mathlib.Order.Monotone.Basic
import Restate.Proofs.Token
import Restate.StatementKind.Classify

/-!
# Tokens at other places

What becomes of tokens if every offset of a statement moves. Their kinds and texts stay, so the
parentheses that belong together do, and so does what kind of statement they are.
-/

namespace Restate

/-- The token where it stands once each offset has moved. -/
def Token.moved (f : Nat → Nat) (t : Token) : Token :=
  { t with start := f t.start, stop := f t.stop }

variable (f : Nat → Nat)

namespace Token

@[simp]
theorem moved_kind (t : Token) : (t.moved f).kind = t.kind :=
  rfl

@[simp]
theorem moved_text (t : Token) : (t.moved f).text = t.text :=
  rfl

@[simp]
theorem moved_upper (t : Token) : (t.moved f).upper = t.upper :=
  rfl

@[simp]
theorem moved_value (t : Token) : (t.moved f).value = t.value :=
  rfl

@[simp]
theorem moved_isWord (t : Token) (words : List Text) : (t.moved f).isWord words = t.isWord words :=
  rfl

@[simp]
theorem moved_isPunct (t : Token) (mark : Text) : (t.moved f).isPunct mark = t.isPunct mark :=
  rfl

@[simp]
theorem moved_isOperator (t : Token) (sign : Text) :
    (t.moved f).isOperator sign = t.isOperator sign :=
  rfl

variable {f} in
/-- Tokens touch after an injective move just if they did before. -/
theorem moved_touches (hf : Function.Injective f) (t u : Token) :
    (t.moved f).touches (u.moved f) = t.touches u := by
  rw [Bool.eq_iff_iff]
  simp [touches, moved, hf.eq_iff]

end Token

theorem closingFrom_moved (depth : Int) (ts : List Token) :
    closingFrom depth (ts.map (Token.moved f)) = closingFrom depth ts := by
  induction ts generalizing depth with
  | nil => rfl
  | cons t ts ih => simp [closingFrom, ih]

theorem consFirst_map (t : Token) (parts : List (List Token)) (g : Token → Token) :
    consFirst (g t) (parts.map (List.map g)) = (consFirst t parts).map (List.map g) := by
  cases parts with
  | nil => rfl
  | cons part parts => rfl

theorem splitAtDepth_moved (separator : Text) (depth : Int) (ts : List Token) :
    splitAtDepth separator depth (ts.map (Token.moved f)) =
      (splitAtDepth separator depth ts).map (List.map (Token.moved f)) := by
  induction ts generalizing depth with
  | nil => rfl
  | cons t ts ih =>
      simp only [List.map_cons, splitAtDepth, Token.moved_isPunct, ih, consFirst_map]
      split
      · rfl
      · split
        · rfl
        · split
          · rfl
          · rfl

theorem splitTopLevel_moved (separator : Text) (ts : List Token) :
    splitTopLevel separator (ts.map (Token.moved f)) =
      (splitTopLevel separator ts).map (List.map (Token.moved f)) :=
  splitAtDepth_moved f separator 0 ts

namespace StatementKind

theorem leadingWords_moved (limit : Nat) (ts : List Token) :
    leadingWords limit (ts.map (Token.moved f)) = leadingWords limit ts := by
  simp [leadingWords, List.takeWhile_map, ← List.map_take, Function.comp_def]

/-- What follows the name of a user, without the parentheses that `CURRENT_USER` may have. -/
def afterUser (user : Token) (rest : List Token) : List Token :=
  match rest with
  | opening :: closing :: more =>
    if user.isWord ["CURRENT_USER"] && opening.isPunct "(" && closing.isPunct ")" then more
    else rest
  | _ => rest

/-- What follows the host of a user, if one is named. -/
def afterHost : List Token → List Token
  | [] => []
  | host :: more => if host.text.head? = some '@' then more else host :: more

theorem afterDefiner_eq (create definer equals user : Token) (rest : List Token) :
    afterDefiner (create :: definer :: equals :: user :: rest) =
      if equals.isOperator "=" then .ok (afterHost (afterUser user rest))
      else .error (.refuse .malformedDefiner) := by
  match rest with
  | [] | [_] => rfl
  | opening :: closing :: more =>
      by_cases hcurrent :
          (user.isWord ["CURRENT_USER"] && opening.isPunct "(" && closing.isPunct ")") = true
      · simp only [afterDefiner, afterUser, if_pos hcurrent]
        cases more with
        | nil => rfl
        | cons host more => rfl
      · simp only [afterDefiner, afterUser, if_neg hcurrent]
        rfl

theorem afterUser_moved (user : Token) (rest : List Token) :
    afterUser (user.moved f) (rest.map (Token.moved f)) =
      (afterUser user rest).map (Token.moved f) := by
  match rest with
  | [] | [_] => rfl
  | opening :: closing :: more =>
      simp only [List.map_cons, afterUser, Token.moved_isWord, Token.moved_isPunct]
      split
      · rfl
      · rfl

theorem afterHost_moved (rest : List Token) :
    afterHost (rest.map (Token.moved f)) = (afterHost rest).map (Token.moved f) := by
  cases rest with
  | nil => rfl
  | cons host more => exact (apply_ite (List.map (Token.moved f)) _ more (host :: more)).symm

theorem afterDefiner_moved (ts : List Token) :
    afterDefiner (ts.map (Token.moved f)) =
      (afterDefiner ts).map (List.map (Token.moved f)) := by
  match ts with
  | [] | [_] | [_, _] | [_, _, _] => rfl
  | _ :: _ :: equals :: user :: rest =>
      simp only [List.map_cons, afterDefiner_eq, Token.moved_isOperator, afterUser_moved,
        afterHost_moved]
      split
      · rfl
      · rfl

theorem decidingWords_moved (ts : List Token) :
    decidingWords (ts.map (Token.moved f)) = decidingWords ts := by
  unfold decidingWords
  simp only [leadingWords_moved, afterDefiner_moved]
  split
  · cases afterDefiner ts with
    | error e => rfl
    | ok rest => simp [Except.map, leadingWords_moved]
  · rfl

theorem ofAlter_moved (ts : List Token) : ofAlter (ts.map (Token.moved f)) = ofAlter ts := by
  match ts with
  | [] | [_] | [_, _] | [_, _, _] => rfl
  | _ :: table :: _ :: action :: rest =>
      have hparts : (splitTopLevel "," ((action :: rest).map (Token.moved f))).length =
          (splitTopLevel "," (action :: rest)).length := by
        rw [splitTopLevel_moved, List.length_map]
      rw [List.map_cons] at hparts
      simp only [List.map_cons, ofAlter, hparts, Token.moved_isWord]
      split
      · rfl
      · split
        · rfl
        · cases rest with
          | nil => rfl
          | cons target more => rfl

theorem ofSignificant_moved (ts : List Token) :
    ofSignificant (ts.map (Token.moved f)) = ofSignificant ts := by
  cases ts with
  | nil => rfl
  | cons first rest =>
      have hwords := decidingWords_moved f (first :: rest)
      have halter := ofAlter_moved f (first :: rest)
      rw [List.map_cons] at hwords halter
      simp only [List.map_cons, ofSignificant, hwords, halter, Token.moved_kind, Token.moved_text]

end StatementKind

end Restate
