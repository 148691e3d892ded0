import Restate.Lexeme.Lemmas

/-!
# Lexing

A statement is read lexeme by lexeme into tokens that carry their offsets. Reading stops at the
first place where no lexeme stands, and what was read before it is kept, so that a fault can be told
together with the tokens that precede it.
-/

namespace Restate

/-- What reading a text gave: the tokens in order, and the fault that stopped it with its offset. -/
structure Lexed where
  tokens : List Token
  fault : Option (LexFault × Nat)

/-- Reads a text that begins at an offset. `afterName` tells whether the last significant token
before it ended a name. -/
def lexFrom (offset : Nat) (afterName : Bool) (s : Text) : Lexed :=
  match s with
  | [] => ⟨[], none⟩
  | c :: more =>
    match _h : lexeme afterName c more with
    | .error fault => ⟨[], some (fault, offset)⟩
    | .ok (kind, text, rest) =>
      let token : Token := ⟨kind, text, offset, offset + text.length⟩
      let lexed := lexFrom token.stop (if token.isTrivia then afterName else token.endsName) rest
      ⟨token :: lexed.tokens, lexed.fault⟩
termination_by s.length
decreasing_by exact (takes_lexeme _h).length_lt

/-- The tokens of a statement, which cover it without gaps, or the fault that stops the lexer. -/
def tokenize (sql : Text) : Except Error (List Token) :=
  let lexed := lexFrom 0 false sql
  match lexed.fault with
  | none => .ok lexed.tokens
  | some (fault, offset) => .error (.lexical fault offset sql)

end Restate
