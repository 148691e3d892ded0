import Restate.Parens
import Restate.Settings
import Restate.Text.Blank

/-!
# Statements on rows

Queries and changes of rows are written again token by token. Names in backticks go between double
quotes, and calls of functions that SQLite lacks are restated by their rules, from the inside out;
every other token stands as it is. String literals have become placeholders before.
-/

namespace Restate

/-- Words after which a name is a table's and not a function's. -/
def tableContext : List Text :=
  ["INTO", "TABLE", "UPDATE", "FROM", "JOIN"]

/-- A word may be a function's name unless the significant token before it introduces a table or is
a point. -/
def mayCall : Option Token → Bool
  | none => true
  | some previous => !(previous.isWord tableContext || previous.isPunct ".")

/-- What follows the opening parenthesis of a call, if that is the next significant token. -/
def callBody? (tokens : List Token) : Option (List Token) :=
  match tokens.dropWhile Token.isTrivia with
  | opening :: body => if opening.isPunct "(" then some body else none
  | [] => none

theorem length_callBody_lt {tokens body : List Token} (h : callBody? tokens = some body) :
    body.length < tokens.length := by
  have hle := (List.dropWhile_suffix Token.isTrivia (l := tokens)).length_le
  unfold callBody? at h
  split at h
  · next opening rest heq =>
    split at h
    · cases h
      rw [heq, List.length_cons] at hle
      omega
    · simp at h
  · simp at h

/-- The rule and the body of the call that a token begins, if it does. -/
def call? (functions : Fields FunctionRule) (previous : Option Token) (t : Token)
    (rest : List Token) : Option (FunctionRule × List Token) :=
  if t.kind.isBare ∧ mayCall previous then
    (functions.get? t.upper).bind fun rule => (callBody? rest).map fun body => (rule, body)
  else none

theorem length_call_lt {functions : Fields FunctionRule} {previous : Option Token} {t : Token}
    {rest body : List Token} {rule : FunctionRule}
    (h : call? functions previous t rest = some (rule, body)) : body.length < rest.length := by
  unfold call? at h
  split at h
  · obtain ⟨_, _, hr⟩ := Option.bind_eq_some_iff.1 h
    obtain ⟨_, hb, heq⟩ := Option.map_eq_some_iff.1 hr
    cases heq
    exact length_callBody_lt hb
  · simp at h

/-- A part of the statement as it is written; nothing where a replacement is not text. -/
abbrev Piece := Option Text

def joinPieces (pieces : List Piece) : Except Error Text :=
  match pieces.mapM id with
  | some texts => .ok texts.flatten
  | none => .error .replacementNotText

/-- A call restated, given its arguments. -/
def FunctionRule.apply (args : Text) : FunctionRule → Except Error Piece
  | .strftime (.str format) =>
    .ok (some ("STRFTIME(" ++ quoteString format ++ "," ++ args ++ ")"))
  | .strftime _ => .error .formatNotText
  | .replace (.str replacement) => .ok (some replacement)
  | .replace _ => .ok none
  | .rename name => .ok (some (name.inserted ++ "(" ++ args ++ ")"))

/-- A token that is no call. -/
def plainPiece (t : Token) : Text :=
  if t.kind = .quotedIdentifier then quoteIdentifier t.value else t.text

/-- The parts of a statement, given the significant token before them. -/
def restatePieces (functions : Fields FunctionRule) (previous : Option Token) :
    List Token → Except Error (List Piece)
  | [] => .ok []
  | t :: rest =>
    match _h : call? functions previous t rest with
    | none => do
      let more ← restatePieces functions (if t.isTrivia then previous else some t) rest
      return some (plainPiece t) :: more
    | some (rule, body) =>
      match closingFrom 1 body with
      | none => .error (.refuse .unbalancedParentheses)
      | some n => do
        let args ← joinPieces (← restatePieces functions none (body.take n))
        let piece ← rule.apply (Text.strip args)
        let more ← restatePieces functions body[n]? (body.drop (n + 1))
        return piece :: more
termination_by tokens => tokens.length
decreasing_by
  · simp
  · have := length_call_lt _h
    simp only [List.length_take, List.length_cons]
    omega
  · have := length_call_lt _h
    simp only [List.length_drop, List.length_cons]
    omega

/-- The text of a statement whose literals are bound already. -/
def restateTokens (functions : Fields FunctionRule) (tokens : List Token) : Except Error Text := do
  joinPieces (← restatePieces functions none tokens)

/-- The tokens with a change at the significant token of the given number. -/
def changeSignificant (change : Token → Token) (n : Nat) : List Token → List Token
  | [] => []
  | t :: rest =>
    if t.isTrivia then t :: changeSignificant change n rest
    else
      match n with
      | 0 => change t :: rest
      | n + 1 => t :: changeSignificant change n rest

/-- `INSERT IGNORE` is written `INSERT OR IGNORE`. -/
def orIgnore (kind : StatementKind) (tokens : List Token) : List Token :=
  match kind, (significant tokens)[1]? with
  | .insert, some second =>
    if second.isWord ["IGNORE"] then
      changeSignificant (fun t => { t with text := "OR IGNORE" }) 1 tokens
    else tokens
  | _, _ => tokens

/-- Whether an insertion says what to do with rows that are there already. -/
def handlesDuplicates (tokens : List Token) : Bool :=
  Text.holds ["ON".toList, "DUPLICATE", "KEY"] ((significant tokens).map Token.upper)

/-- The SQLite form of a statement on rows. -/
def restateRows (functions : Fields FunctionRule) (kind : StatementKind) (tokens : List Token) :
    Except Error Text :=
  if handlesDuplicates tokens then .error (.refuse .onDuplicateKey)
  else restateTokens functions (orIgnore kind tokens)

end Restate
