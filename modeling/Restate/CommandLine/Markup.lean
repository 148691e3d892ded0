import Restate.CommandLine.Literal
import Restate.CommandLine.Style

/-!
# Markup

Console texts carry tags between square brackets. What a reader sees is the text without them: a
tag begins with a small letter, a hash, a slash or an at sign, a backslash before it makes it plain
text, and a closing tag has to close one that is open. A text may be escaped before it is printed;
then its tags are plain text as well.
-/

namespace Restate

/-- Why the markup of a text cannot be removed. -/
inductive MarkupFault where
  /-- A closing tag closes none that is open. -/
  | nothingToClose
  /-- The argument of a tag that is acted on is no literal. -/
  | argumentNotLiteral
  /-- The name of a tag holds a color with a share that is no numeral. -/
  | numeral (fault : NumeralFault)

def MarkupFault.message : MarkupFault → Text
  | .nothingToClose => "A closing tag has nothing to close"
  | .argumentNotLiteral => "The argument of a tag is not a literal"
  | .numeral fault => fault.message

namespace Markup

/-! ## Pieces -/

/-- The characters a tag may begin with. -/
def beginsTag (c : Char) : Bool :=
  ('a' ≤ c && c ≤ 'z') || c == '#' || c == '/' || c == '@'

/-- What stands up to the next closing bracket, if no bracket opens before it. -/
def throughBracket : Text → Option Text
  | [] => none
  | c :: s =>
    if c = ']' then some []
    else if c = '[' then none
    else (throughBracket s).map (c :: ·)

/-- The contents of a tag behind its opening bracket. -/
def tag? (s : Text) : Option Text :=
  if (s.head?.map beginsTag).getD false then throughBracket s else none

inductive Piece where
  | plain (c : Char)
  /-- A tag, and the number of backslashes before it. -/
  | tag (backslashes : Nat) (contents : Text)

def backslashes (count : Nat) : Text :=
  List.replicate count '\\'

/-- The pieces of a text, of which the first `skip` characters belong to a tag that is read already
and `before` backslashes stand before it. Of the backslashes before a bracket that opens no tag the
last is dropped. -/
def piecesFrom (before skip : Nat) : Text → List Piece
  | [] => (backslashes before).map .plain
  | c :: s =>
    match skip with
    | skip + 1 => piecesFrom before skip s
    | 0 =>
      if c = '\\' then piecesFrom (before + 1) 0 s
      else if c = '[' then
        match tag? s with
        | some contents => .tag before contents :: piecesFrom 0 (contents.length + 1) s
        | none => (backslashes (before - 1) ++ ['[']).map .plain ++ piecesFrom 0 0 s
      else (backslashes before ++ [c]).map .plain ++ piecesFrom 0 0 s

def pieces (s : Text) : List Piece :=
  piecesFrom 0 0 s

def written (contents : Text) : Text :=
  ['['] ++ contents ++ [']']

/-! ## What is seen -/

/-- The characters that move the cursor of a console or ring its bell; texts are printed without
them. -/
def isControl (c : Char) : Bool :=
  c == '\x07' || c == '\x08' || c == '\x0b' || c == '\x0c' || c == '\r'

/-- A text as it is printed. -/
def withoutControls (s : Text) : Text :=
  s.filter fun c => !isControl c

/-- Whether a text ends with a backslash that stands alone. -/
def endsWithBackslash (s : Text) : Bool :=
  (s.reverse.takeWhile (· == '\\')).length == 1

/-- A piece of an escaped text as it is seen. -/
def Piece.escaped : Piece → Text
  | .plain c => [c]
  | .tag before contents => backslashes before ++ written contents

/-- What is seen of a text that is escaped before it is printed: the text, tags and all, but for
the backslash before a bracket that opens no tag. A lone backslash at the end is doubled. -/
def escaped (s : Text) : Text :=
  withoutControls ((pieces s).flatMap Piece.escaped ++ backslashes (endsWithBackslash s).toNat)

/-! ## Tags -/

structure OpenTag where
  /-- Its name in normal form. -/
  name : Text
  /-- What stands behind the equals sign, if one does. -/
  argument : Text
  deriving DecidableEq

/-- The name of a tag in normal form. -/
def normalName (name : Text) : Except MarkupFault Text :=
  match Style.normalForm name with
  | .ok name => .ok name
  | .error fault => .error (.numeral fault)

/-- The characters of the name of an action. -/
def isActionChar (c : Char) : Bool :=
  Text.isWordChar c || c == '.'

/-- Whether what an action is given is understood: nothing, or a literal in round brackets behind
the name of the action, or a literal without a name. -/
def isAction (argument : Text) : Bool :=
  let given := argument.dropWhile isActionChar
  let bracketed := given.head? = some '(' ∧ given.getLast? = some ')' ∧ !given.contains '\n'
  given.isEmpty || isLiteral (if bracketed then given else argument)

/-- Whether a tag may be closed. Tags whose names begin with an at sign are acted on, and have to
say what is to be done if they have an argument. -/
def OpenTag.mayClose (tag : OpenTag) : Bool :=
  tag.name.head? != some '@' || tag.argument.isEmpty || isAction (Text.strip tag.argument)

/-- The tag that a closing tag closes: the latest of the name, or the latest of all if it names
none. -/
def closed? (opened : List OpenTag) (name : Text) : Except MarkupFault (Option OpenTag) :=
  if (Text.strip name).isEmpty then .ok opened.head?
  else do
    let name ← normalName (Text.strip name)
    return opened.find? (·.name == name)

/-- The open tags behind a tag, latest first. -/
def applyTag (opened : List OpenTag) (contents : Text) : Except MarkupFault (List OpenTag) :=
  let name := contents.takeWhile (· != '=')
  let argument := (contents.dropWhile (· != '=')).drop 1
  match name with
  | '/' :: name => do
    match ← closed? opened name with
    | none => .error .nothingToClose
    | some tag => if tag.mayClose then .ok (opened.erase tag) else .error .argumentNotLiteral
  | _ => do
    let name ← normalName name
    return ⟨name, argument⟩ :: opened

/-- The text of pieces, given the tags that are open. Of the backslashes before a tag two stand for
one, and one that is left makes the tag plain text. -/
def plainFrom (opened : List OpenTag) : List Piece → Except MarkupFault Text
  | [] => .ok []
  | .plain c :: more => (plainFrom opened more).map (c :: ·)
  | .tag before contents :: more => do
    if before % 2 = 1 then
      return backslashes (before / 2) ++ written contents ++ (← plainFrom opened more)
    else
      let opened ← applyTag opened contents
      return backslashes (before / 2) ++ (← plainFrom opened more)

/-- What is seen of a text, or the first fault in its markup. -/
def plain (s : Text) : Except MarkupFault Text :=
  (plainFrom [] (pieces s)).map withoutControls

end Markup

end Restate
