import Restate.Name

/-!
# Tokens

A token is a stretch of a statement with a kind. White space and comments are tokens too, so the
tokens of a statement cover it without gaps.
-/

namespace Restate

/-- What a token is. -/
inductive TokenKind where
  | keyword
  | identifier
  | quotedIdentifier
  | string
  | number
  | operator
  | punctuation
  | whitespace
  | comment
  | placeholder
  deriving DecidableEq, Repr

namespace TokenKind

def label : TokenKind → Text
  | .keyword => "keyword"
  | .identifier => "identifier"
  | .quotedIdentifier => "quoted_identifier"
  | .string => "string"
  | .number => "number"
  | .operator => "operator"
  | .punctuation => "punctuation"
  | .whitespace => "whitespace"
  | .comment => "comment"
  | .placeholder => "placeholder"

/-- White space and comments, which carry no meaning. -/
def isTrivia : TokenKind → Bool
  | .whitespace | .comment => true
  | _ => false

/-- Keywords and bare names. -/
def isBare : TokenKind → Bool
  | .keyword | .identifier => true
  | _ => false

end TokenKind

/-- A stretch of a statement, from offset `start` up to offset `stop`. -/
structure Token where
  kind : TokenKind
  text : Text
  start : Nat
  stop : Nat
  deriving DecidableEq, Repr

namespace Token

/-- The text in upper case, by which words are compared. -/
def upper (t : Token) : Text :=
  Text.upper t.text

/-- White space or a comment. -/
def isTrivia (t : Token) : Bool :=
  t.kind.isTrivia

/-- A keyword or bare name that is one of the given words, which are in upper case. -/
def isWord (t : Token) (words : List Text) : Bool :=
  t.kind.isBare && words.contains t.upper

def isPunct (t : Token) (mark : Text) : Bool :=
  t.kind == .punctuation && t.text == mark

def isOperator (t : Token) (sign : Text) : Bool :=
  t.kind == .operator && t.text == sign

/-- What the token stands for: the contents of a literal, the name in a quoted identifier, and
otherwise its text. -/
def value (t : Token) : Text :=
  match t.kind with
  | .string => (decodeString? t.text).getD []
  | .quotedIdentifier => decodeIdentifier t.text
  | _ => t.text

/-- The token names something, so a point after it continues the name. -/
def endsName (t : Token) : Bool :=
  t.kind == .identifier || t.kind == .quotedIdentifier || t.isPunct ")"

/-- Two tokens touch if nothing stands between them. -/
def touches (t u : Token) : Bool :=
  t.stop == u.start

end Token

/-- The tokens that carry meaning. -/
def significant (tokens : List Token) : List Token :=
  tokens.filter fun t => !t.isTrivia

/-- The text the tokens cover. -/
def sourceText (tokens : List Token) : Text :=
  tokens.flatMap Token.text

end Restate
