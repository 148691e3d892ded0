import Restate.Parens

/-!
# Cursors

A cursor stands between two tokens of a statement: what it has passed, latest first, and what lies
ahead. Reading moves it forward only, and it keeps its place when a reading fails.
-/

namespace Restate

/-- A place among the tokens of a statement. -/
structure Cursor where
  /-- The tokens read already, the latest first. -/
  passed : List Token
  /-- The tokens still to be read. -/
  ahead : List Token

namespace Cursor

/-- The tokens without a semicolon at their end. -/
def withoutSemicolon (tokens : List Token) : List Token :=
  match tokens.getLast? with
  | some t => if t.isPunct ";" then tokens.dropLast else tokens
  | none => tokens

/-- A cursor before the first of the tokens. A semicolon at the end is not among them. -/
def ofTokens (tokens : List Token) : Cursor :=
  ⟨[], withoutSemicolon tokens⟩

/-- All tokens, on both sides of the cursor. -/
def tokens (c : Cursor) : List Token :=
  c.passed.reverse ++ c.ahead

def pos (c : Cursor) : Nat :=
  c.passed.length

def next? (c : Cursor) : Option Token :=
  c.ahead.head?

def nextIs (c : Cursor) (p : Token → Bool) : Bool :=
  (c.next?.map p).getD false

def atEnd (c : Cursor) : Bool :=
  c.ahead.isEmpty

/-- The cursor behind the next `n` tokens. -/
def skip (n : Nat) (c : Cursor) : Cursor :=
  ⟨(c.ahead.take n).reverse ++ c.passed, c.ahead.drop n⟩

/-- The token at a distance from the cursor, or nothing behind the last token. Before the first
token the count goes on from the last one; beyond that there is no place at all. -/
def peek (c : Cursor) (offset : Int) : Option (Option Token) :=
  let index := (c.pos : Int) + offset
  if 0 ≤ index then some c.tokens[index.toNat]?
  else if index.natAbs ≤ c.tokens.length then
    some c.tokens[c.tokens.length - index.natAbs]?
  else none

@[simp]
theorem tokens_skip (n : Nat) (c : Cursor) : (c.skip n).tokens = c.tokens := by
  simp [skip, tokens]

end Cursor

/-- A reading step: what it yields, and the cursor it leaves behind, also when it fails. -/
def Reading (α : Type) := Cursor → Except Error α × Cursor

namespace Reading

variable {α : Type}

instance : Monad Reading where
  pure a c := (.ok a, c)
  bind x f c :=
    match x c with
    | (.ok a, c) => f a c
    | (.error e, c) => (.error e, c)

/-- What a reading yields from the beginning of the tokens. -/
def run (x : Reading α) (tokens : List Token) : Except Error α :=
  (x (Cursor.ofTokens tokens)).1

def here : Reading Cursor := fun c => (.ok c, c)

/-- Refuses a construct, wherever the cursor stands. -/
def fail (cause : Unsupported) : Reading α := fun c => (.error (.refuse cause), c)

/-- An outcome that does not depend on the cursor. -/
def lift (outcome : Except Error α) : Reading α := fun c => (outcome, c)

/-- Repeats a step until no token lies ahead, and collects what it yields; what was collected before
a failure is kept. A step that passes no token ends the repetition. -/
def collect (step : Reading α) (c : Cursor) : List α × Except Error Unit × Cursor :=
  if c.atEnd then ([], .ok (), c)
  else
    match step c with
    | (.error e, c') => ([], .error e, c')
    | (.ok a, c') =>
      if c'.ahead.length < c.ahead.length then
        let (more, result) := collect step c'
        (a :: more, result)
      else ([a], .ok (), c')
termination_by c.ahead.length

/-- Repeats a step until no token lies ahead; fails if the step does. -/
def gather (step : Reading α) : Reading (List α) := fun c =>
  match collect step c with
  | (collected, .ok (), c) => (.ok collected, c)
  | (_, .error e, c) => (.error e, c)

/-- The next token, which must be there. -/
def advance : Reading Token := fun c =>
  match c.ahead with
  | t :: _ => (.ok t, c.skip 1)
  | [] => (.error (.refuse .unexpectedEnd), c)

/-- The next token if it has a property; otherwise the cursor stays. -/
def accept (p : Token → Bool) : Reading (Option Token) := fun c =>
  match c.ahead with
  | t :: _ => if p t then (.ok (some t), c.skip 1) else (.ok none, c)
  | [] => (.ok none, c)

/-- The next token if it is one of the words. -/
def acceptWord (words : List Text) : Reading (Option Token) :=
  accept fun t => t.isWord words

def acceptPunct (mark : Text) : Reading (Option Token) :=
  accept fun t => t.isPunct mark

def acceptOperator (sign : Text) : Reading (Option Token) :=
  accept fun t => t.isOperator sign

/-- Whether the tokens begin with the words in sequence. -/
def beginsWith : List Text → List Token → Bool
  | [], _ => true
  | _ :: _, [] => false
  | word :: words, t :: ts => t.isWord [word] && beginsWith words ts

/-- The whole sequence of words, or none of them. -/
def acceptWords (sequence : List Text) : Reading Bool := fun c =>
  if beginsWith sequence c.ahead then (.ok true, c.skip sequence.length) else (.ok false, c)

/-- What a message says was found where something else was expected. -/
def found (c : Cursor) : Text :=
  (c.next?.map Token.text).getD "end of statement"

/-- The next token, which must be one of the words. -/
def expectWord (words : List Text) : Reading Token := do
  match ← acceptWord words with
  | some t => return t
  | none => fail (.expectedWord words (found (← here)))

/-- The name the next token gives, quoted or bare. A token of another kind is passed as well. -/
def identifier : Reading Text := do
  let t ← advance
  if t.kind = .quotedIdentifier ∨ t.kind.isBare then return t.value
  else fail (.expectedIdentifier t.text)

/-- The name of a table, which no point may follow. -/
def tableName : Reading Text := do
  let name ← identifier
  if (← here).nextIs (·.isPunct ".") then fail .qualifiedTable else return name

/-- A parenthesis, through the one that closes it, with both of them. -/
def group : Reading (List Token) := fun c =>
  match c.ahead with
  | opening :: rest =>
    if opening.isPunct "(" then
      match closingFrom 1 rest with
      | some n => (.ok (c.ahead.take (n + 2)), c.skip (n + 2))
      | none => (.error (.refuse .unbalancedParentheses), c)
    else (.error (.refuse (.expectedParenthesis (found c))), c)
  | [] => (.error (.refuse (.expectedParenthesis (found c))), c)

/-- The tokens between two parentheses. -/
def parenthesized : Reading (List Token) := do
  return (← group).tail.dropLast

/-- A parenthesis and all in it, if one opens here. -/
def skipGroup : Reading Unit := do
  if (← here).nextIs (·.isPunct "(") then
    let _ ← group

def remaining : Reading (List Token) := fun c =>
  (.ok c.ahead, c.skip c.ahead.length)

end Reading

end Restate
