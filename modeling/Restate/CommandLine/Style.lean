import Restate.CommandLine.Color
import Restate.Text.Blank

/-!
# Styles

The name of a tag is a style: traits, colors of the letters and of the ground, and the target
of a link. Several names mean the same style, so tags are compared by a normal form: traits in
a fixed order, colors after them. A name that is no style is its own normal form up to case.
-/

namespace Restate

open Text

/-- What a style may switch on or off, in the order in which it is named. -/
inductive StyleTrait where
  | bold
  | dim
  | italic
  | underline
  | blink
  | blink2
  | reverse
  | conceal
  | strike
  | underline2
  | frame
  | encircle
  | overline
  deriving DecidableEq, Repr

namespace StyleTrait

def all : List StyleTrait :=
  [.bold, .dim, .italic, .underline, .blink, .blink2, .reverse, .conceal, .strike, .underline2,
   .frame, .encircle, .overline]

def label : StyleTrait → Text
  | .bold => "bold"
  | .dim => "dim"
  | .italic => "italic"
  | .underline => "underline"
  | .blink => "blink"
  | .blink2 => "blink2"
  | .reverse => "reverse"
  | .conceal => "conceal"
  | .strike => "strike"
  | .underline2 => "underline2"
  | .frame => "frame"
  | .encircle => "encircle"
  | .overline => "overline"

def short? : StyleTrait → Option Text
  | .bold => some "b"
  | .dim => some "d"
  | .italic => some "i"
  | .underline => some "u"
  | .reverse => some "r"
  | .conceal => some "c"
  | .strike => some "s"
  | .underline2 => some "uu"
  | .overline => some "o"
  | _ => none

/-- The trait a word names. -/
def ofWord? (word : Text) : Option StyleTrait :=
  all.find? fun trait => trait.label = word || trait.short? = some word

end StyleTrait

/-- How something is displayed; what is not said stays as it is. -/
structure Style where
  /-- Whether a trait is switched on or off. -/
  traits : StyleTrait → Option Bool
  color : Option Text
  /-- The color of the ground. -/
  ground : Option Text
  /-- The target of a link. -/
  link : Option Text

namespace Style

/-- Why a text is not read as a style. -/
inductive Fault where
  | notStyle
  | numeral (fault : NumeralFault)

/-- The style that says nothing. -/
def plain : Style :=
  ⟨fun _ => none, none, none, none⟩

def switch (style : Style) (trait : StyleTrait) (on : Bool) : Style :=
  { style with
    traits := fun other => if other = trait then some on else style.traits other }

/-- The color a word names, in lower case. -/
def readColor (word : Text) : Except Fault Text :=
  match Color.isColor (lower word) with
  | .ok true => .ok (lower word)
  | .ok false => .error .notStyle
  | .error fault => .error (.numeral fault)

/-- Reads the words of a style on top of those read already. Of two that say the same the later
one counts. `on`, `not` and `link` take the next word with them. -/
def readWords (style : Style) : List Text → Except Fault Style
  | [] => .ok style
  | word :: more =>
    if lower word = "on".toList then
      match more with
      | [] => .error .notStyle
      | target :: more => do
        let color ← readColor target
        readWords { style with ground := some color } more
    else if lower word = "not".toList then
      match more with
      | [] => .error .notStyle
      | target :: more =>
        match StyleTrait.ofWord? target with
        | some trait => readWords (style.switch trait false) more
        | none => .error .notStyle
    else if lower word = "link".toList then
      match more with
      | [] => .error .notStyle
      | target :: more => readWords { style with link := some target } more
    else
      match StyleTrait.ofWord? (lower word) with
      | some trait => readWords (style.switch trait true) more
      | none => do
        let color ← readColor word
        readWords { style with color := some color } more

/-- What a trait adds to the text of a style. -/
def traitWords (style : Style) (trait : StyleTrait) : List Text :=
  match style.traits trait with
  | some true => [trait.label]
  | some false => ["not", trait.label]
  | none => []

/-- A style in words, each thing said once. -/
def inWords (style : Style) : List Text :=
  let behind (word : Text) : Option Text → List Text
    | some target => [word, target]
    | none => []
  StyleTrait.all.flatMap style.traitWords ++ style.color.toList
    ++ behind "on" style.ground ++ behind "link" style.link

/-- The text of a style. One that says nothing is called `none`. -/
def text (style : Style) : Text :=
  match style.inWords with
  | [] => "none"
  | said => List.intercalate [' '] said

/-- The normal form of a name. -/
def normalForm (name : Text) : Except NumeralFault Text :=
  if strip name = "none".toList then .ok "none"
  else
    match readWords plain (words name) with
    | .ok style => .ok style.text
    | .error .notStyle => .ok (lower (strip name))
    | .error (.numeral fault) => .error fault

end Style

end Restate
