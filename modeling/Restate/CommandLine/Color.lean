import Restate.Number.Numeral
import Restate.Text.Case

/-!
# Colors

The colors a console text may ask for: by name, by a number up to 255, or by the shares of red,
green and blue, either as six hexadecimal digits or as three numerals up to 255.
-/

namespace Restate

namespace Color

open Text

/-- The names of colors; `default` leaves the color as it is. -/
def names : List Text :=
  List.map String.toList
    ["aquamarine1", "aquamarine3", "black", "blue", "blue1", "blue3", "blue_violet",
     "bright_black", "bright_blue", "bright_cyan", "bright_green", "bright_magenta",
     "bright_red", "bright_white", "bright_yellow", "cadet_blue", "chartreuse1", "chartreuse2",
     "chartreuse3", "chartreuse4", "cornflower_blue", "cornsilk1", "cyan", "cyan1", "cyan2",
     "cyan3", "dark_blue", "dark_cyan", "dark_goldenrod", "dark_green", "dark_khaki",
     "dark_magenta", "dark_olive_green1", "dark_olive_green2", "dark_olive_green3",
     "dark_orange", "dark_orange3", "dark_red", "dark_sea_green", "dark_sea_green1",
     "dark_sea_green2", "dark_sea_green3", "dark_sea_green4", "dark_slate_gray1",
     "dark_slate_gray2", "dark_slate_gray3", "dark_turquoise", "dark_violet", "deep_pink1",
     "deep_pink2", "deep_pink3", "deep_pink4", "deep_sky_blue1", "deep_sky_blue2",
     "deep_sky_blue3", "deep_sky_blue4", "default", "dodger_blue1", "dodger_blue2",
     "dodger_blue3", "gold1", "gold3", "gray0", "gray100", "gray11", "gray15", "gray19",
     "gray23", "gray27", "gray3", "gray30", "gray35", "gray37", "gray39", "gray42", "gray46",
     "gray50", "gray53", "gray54", "gray58", "gray62", "gray63", "gray66", "gray69", "gray7",
     "gray70", "gray74", "gray78", "gray82", "gray84", "gray85", "gray89", "gray93", "green",
     "green1", "green3", "green4", "green_yellow", "grey0", "grey100", "grey11", "grey15",
     "grey19", "grey23", "grey27", "grey3", "grey30", "grey35", "grey37", "grey39", "grey42",
     "grey46", "grey50", "grey53", "grey54", "grey58", "grey62", "grey63", "grey66", "grey69",
     "grey7", "grey70", "grey74", "grey78", "grey82", "grey84", "grey85", "grey89", "grey93",
     "honeydew2", "hot_pink", "hot_pink2", "hot_pink3", "indian_red", "indian_red1", "khaki1",
     "khaki3", "light_coral", "light_cyan1", "light_cyan3", "light_goldenrod1",
     "light_goldenrod2", "light_goldenrod3", "light_green", "light_pink1", "light_pink3",
     "light_pink4", "light_salmon1", "light_salmon3", "light_sea_green", "light_sky_blue1",
     "light_sky_blue3", "light_slate_blue", "light_slate_gray", "light_slate_grey",
     "light_steel_blue", "light_steel_blue1", "light_steel_blue3", "light_yellow3", "magenta",
     "magenta1", "magenta2", "magenta3", "medium_orchid", "medium_orchid1", "medium_orchid3",
     "medium_purple", "medium_purple1", "medium_purple2", "medium_purple3", "medium_purple4",
     "medium_spring_green", "medium_turquoise", "medium_violet_red", "misty_rose1",
     "misty_rose3", "navajo_white1", "navajo_white3", "navy_blue", "orange1", "orange3",
     "orange4", "orange_red1", "orchid", "orchid1", "orchid2", "pale_green1", "pale_green3",
     "pale_turquoise1", "pale_turquoise4", "pale_violet_red1", "pink1", "pink3", "plum1",
     "plum2", "plum3", "plum4", "purple", "purple3", "purple4", "red", "red1", "red3",
     "rosy_brown", "royal_blue1", "salmon1", "sandy_brown", "sea_green1", "sea_green2",
     "sea_green3", "sky_blue1", "sky_blue2", "sky_blue3", "slate_blue1", "slate_blue3",
     "spring_green1", "spring_green2", "spring_green3", "spring_green4", "steel_blue",
     "steel_blue1", "steel_blue3", "tan", "thistle1", "thistle3", "turquoise2", "turquoise4",
     "violet", "wheat1", "wheat4", "white", "yellow", "yellow1", "yellow2", "yellow3", "yellow4"]

/-- The highest number of a color, and the highest share of red, green or blue. -/
def limit : Nat := 255

/-- What stands between an opening and a closing mark, if the text is made of the three. -/
def between? (opening closing : Text) (s : Text) : Option Text :=
  if opening.isPrefixOf s && closing.isSuffixOf (s.drop opening.length) then
    some ((s.drop opening.length).take (s.length - opening.length - closing.length))
  else none

/-- Six hexadecimal digits behind a hash; letters are small. -/
def isHexadecimal : Text → Bool
  | '#' :: digits => digits.length == 6 && digits.all fun c => c.isDigit || ('a' ≤ c && c ≤ 'f')
  | _ => false

/-- A number of at most three digits, in the form `color(7)`. -/
def isNumbered (word : Text) : Bool :=
  match between? "color(" ")" word with
  | some digits =>
    !digits.isEmpty && digits.length ≤ 3 && digits.all Char.isDigit
      && Numeral.ofDigits 10 (digits.filterMap decimalValue?) ≤ limit
  | none => false

/-- Three shares in the form `rgb(1,2,3)`. A share without digits is no numeral, which is a fault
and not merely no color. -/
def isMixed (word : Text) : Except NumeralFault Bool :=
  match between? "rgb(" ")" word with
  | some inside =>
    if inside.isEmpty || !inside.all fun c => isDecimal c || c == ',' then .ok false
    else
      match pieces ',' inside with
      | [red, green, blue] => do
        let shares ← [red, green, blue].mapM (Numeral.integer 10)
        return shares.all (· ≤ limit)
      | _ => .ok false
  | none => .ok false

/-- Whether a word in lower case is a color. -/
def isColor (word : Text) : Except NumeralFault Bool :=
  if names.contains word || isHexadecimal word || isNumbered word then .ok true
  else isMixed word

end Color

end Restate
