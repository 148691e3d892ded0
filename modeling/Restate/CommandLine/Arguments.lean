import Restate.Fields

/-!
# Arguments

The arguments of a program: options with a value each, given as `--name value`, `--name=value`,
`-n value` or `-nvalue`; a plea for help; and operands. Two hyphens end the options. The last value
of an option counts.
-/

namespace Restate

/-- An option that takes a value. -/
structure OptionSpec where
  /-- Its long form, with the hyphens. -/
  long : Text
  /-- The letter of its short form, if it has one. -/
  short : Option Char

/-- The arguments of a program, understood. -/
structure Arguments where
  /-- The values of the options, by their long forms. -/
  values : Fields Text
  help : Bool
  operands : List Text

namespace Arguments

/-- What one argument is. -/
inductive Role where
  /-- An option whose value is the next argument. -/
  | option (long : Text)
  | valued (long value : Text)
  | help
  | operand
  /-- Everything behind it is an operand. -/
  | endOfOptions
  | unknown

/-- An argument in the short form of an option, perhaps with its value. -/
def shortRole (specs : List OptionSpec) (letter : Char) (attached : Text) : Role :=
  match specs.find? (·.short == some letter) with
  | none => .unknown
  | some spec => if attached.isEmpty then .option spec.long else .valued spec.long attached

def role (specs : List OptionSpec) (argument : Text) : Role :=
  match argument with
  | ['-', '-'] => .endOfOptions
  | '-' :: letter :: attached =>
    let name := argument.takeWhile (· != '=')
    let behind := argument.dropWhile (· != '=')
    if specs.any (·.long == name) then
      if behind.isEmpty then .option name else .valued name (behind.drop 1)
    else if name = "--help".toList then if behind.isEmpty then .help else .unknown
    else if letter = '-' then .unknown
    else shortRole specs letter attached
  | _ => .operand

def set (arguments : Arguments) (long value : Text) : Arguments :=
  { arguments with values := arguments.values.put long value }

/-- Reads arguments one after another; nothing if one is unknown or lacks its value. -/
def readFrom (specs : List OptionSpec) (found : Arguments) : List Text → Option Arguments
  | [] => some found
  | argument :: rest =>
    match role specs argument with
    | .endOfOptions => some { found with operands := found.operands ++ rest }
    | .operand => readFrom specs { found with operands := found.operands ++ [argument] } rest
    | .help => readFrom specs { found with help := true } rest
    | .valued long value => readFrom specs (found.set long value) rest
    | .option long =>
      match rest with
      | [] => none
      | value :: rest => readFrom specs (found.set long value) rest
    | .unknown => none

/-- The arguments of a program with the given options. -/
def read? (specs : List OptionSpec) (arguments : List Text) : Option Arguments :=
  readFrom specs ⟨[], false, []⟩ arguments

/-- The value of an option; an option that is not given is empty. -/
def value (arguments : Arguments) (long : Text) : Text :=
  (arguments.values.get? long).getD []

end Arguments

end Restate
