import Restate.Json.Reader
import Restate.Json.Writer
import Restate.Text.Case

/-!
# Settings

Which SQLite type each MySQL type becomes, how calls of MySQL functions are restated, what stands
for a statement without effect, and how patiently a commit is tried again. A settings file lays its
sections over the built-in ones: a section of fields is updated field by field, so a built-in field
keeps its place and a new one goes last; anything else replaces the section.
-/

namespace Restate

/-- How a call of a function is restated, with the argument as the settings give it. -/
inductive FunctionRule where
  /-- The date format put before the arguments of `STRFTIME`. -/
  | strftime (format : Json)
  /-- What stands for the whole call. -/
  | replace (replacement : Json)
  /-- The name that takes the place of the function's. -/
  | rename (name : Json)

namespace FunctionRule

def ofKind? (kind : Text) (argument : Json) : Option FunctionRule :=
  if kind = "strftime".toList then some (.strftime argument)
  else if kind = "replace".toList then some (.replace argument)
  else if kind = "rename".toList then some (.rename argument)
  else none

def kinds : List Text :=
  ["strftime", "replace", "rename"]

/-- The rule as it stands in a settings file. -/
def toJson : FunctionRule → Json
  | .strftime format => .obj [("strftime", format)]
  | .replace replacement => .obj [("replace", replacement)]
  | .rename name => .obj [("rename", name)]

end FunctionRule

/-- Why settings cannot be loaded. -/
inductive SettingsFault where
  /-- The settings, or a section of types or functions, is no object. -/
  | noFields
  /-- The names of a type are given as something that holds no names. -/
  | noNames
  | nameNotText
  | ruleWithoutParts
  /-- A function rule does not consist of one part of a known kind. -/
  | badRule (name : Text)
  /-- A function rule names its kind, of the given length, and nothing more. -/
  | ruleWithoutArgument (length : Nat)

namespace SettingsFault

def message : SettingsFault → Text
  | .noFields => "A section of the settings is no object"
  | .noNames => "A list of type names is expected"
  | .nameNotText => "A type name is not text"
  | .ruleWithoutParts => "A function rule has no parts"
  | .badRule name =>
    "Function rule for " ++ name ++ " must have exactly one of "
      ++ List.intercalate [',', ' '] FunctionRule.kinds
  | .ruleWithoutArgument length =>
    "dictionary update sequence element #0 has length " ++ Text.numeral length
      ++ "; 2 is required"

end SettingsFault

/-- Why a setting gives no number. -/
inductive SettingFault where
  | numeral (fault : NumeralFault)
  /-- A value of another kind. -/
  | noNumber
  /-- A number without a whole or floating-point counterpart. -/
  | outOfRange
  /-- A whole number asked of what is no number. -/
  | wholeOfNaN

def SettingFault.message : SettingFault → Text
  | .numeral fault => fault.message
  | .noNumber => "A number is expected"
  | .outOfRange => "A number is out of range"
  | .wholeOfNaN => "cannot convert float NaN to integer"

/-- The settings in force. -/
structure Settings where
  /-- All sections as loaded. -/
  sections : Fields Json
  /-- The SQLite type for each MySQL type name in lower case. -/
  types : Fields Text
  /-- The rule for each function name in upper case. -/
  functions : Fields FunctionRule

namespace Settings

/-- Where settings come from. -/
inductive Source where
  /-- No settings file is named. -/
  | builtIn
  | unreadable
  /-- The text of a file, which may or may not be JSON. -/
  | text (contents : Text)
  /-- The value a file spells. -/
  | value (overrides : Json)

/-- The type names of a section, as a settings file lists them. -/
def typeList (items : List String) : Json :=
  .arr (items.map fun (item : String) => Json.str item)

def builtInTypes : Fields Json :=
  [("integer", typeList ["tinyint", "smallint", "mediumint", "int", "integer", "bigint", "bit",
      "bool", "boolean", "year", "serial"]),
   ("text", typeList ["char", "varchar", "nchar", "nvarchar", "tinytext", "text", "mediumtext",
      "longtext", "enum", "set", "json", "date", "datetime", "timestamp", "time"]),
   ("real", typeList ["float", "double", "double precision", "real", "decimal", "dec", "numeric",
      "fixed"]),
   ("blob", typeList ["binary", "varbinary", "tinyblob", "blob", "mediumblob", "longblob"])]

/-- The built-in function section. The month is formatted with the directive for minutes. -/
def builtInFunctions : Fields Json :=
  let rule (kind argument : String) : Json := .obj [(kind.toList, .str argument)]
  [("YEAR", rule "strftime" "%Y"),
   ("MONTH", rule "strftime" "%M"),
   ("DAY", rule "strftime" "%d"),
   ("DAYOFMONTH", rule "strftime" "%d"),
   ("HOUR", rule "strftime" "%H"),
   ("MINUTE", rule "strftime" "%M"),
   ("SECOND", rule "strftime" "%S"),
   ("NOW", rule "replace" "CURRENT_TIMESTAMP"),
   ("CURRENT_TIMESTAMP", rule "replace" "CURRENT_TIMESTAMP"),
   ("UTC_TIMESTAMP", rule "replace" "CURRENT_TIMESTAMP"),
   ("CURDATE", rule "replace" "CURRENT_DATE"),
   ("CURTIME", rule "replace" "CURRENT_TIME"),
   ("RAND", rule "rename" "RANDOM"),
   ("LCASE", rule "rename" "LOWER"),
   ("UCASE", rule "rename" "UPPER")]

/-- The retry delay of one tenth of a second. -/
def builtInDelay : Double :=
  Double.ofDecimal false 1 (-1)

def builtInSections : Fields Json :=
  [("types", .obj builtInTypes),
   ("functions", .obj builtInFunctions),
   ("translation", .obj [("noop_sql", .str "SELECT 1=1"), ("placeholder_prefix", .str "param")]),
   ("execution", .obj [("max_retries", .int 3), ("retry_delay_seconds", .float builtInDelay)])]

/-- A section laid over the one of the same name. -/
def overlaySection (sections : Fields Json) (name : Text) (value : Json) : Fields Json :=
  match value, sections.get? name with
  | .obj fields, some (.obj current) => sections.put name (.obj (Fields.overlay current fields))
  | _, _ => sections.put name value

/-- All sections of a settings file laid over the given ones. -/
def overlay (sections overrides : Fields Json) : Fields Json :=
  overrides.foldl (fun sections entry => overlaySection sections entry.1 entry.2) sections

/-- The names under one type: the items of a list, the characters of a text, or the keys of an
object. -/
def typeNames : Json → Except SettingsFault (List Text)
  | .arr items =>
    items.mapM fun item =>
      match item with
      | .str name => .ok name
      | _ => .error .nameNotText
  | .str s => .ok (s.map fun c => [c])
  | .obj fields => .ok (Fields.keys fields)
  | _ => .error .noNames

/-- The type entries of a section in order: each listed name in lower case, with its type. -/
def typeEntries (fields : Fields Json) : Except SettingsFault (List (Text × Text)) := do
  let entries ← fields.mapM fun (target, listed) => do
    let names ← typeNames listed
    return names.map fun name => (Text.lower name, target)
  return entries.flatten

/-- A function rule out of a settings value: an object with one field of a known kind. -/
def functionRule (name : Text) : Json → Except SettingsFault FunctionRule
  | .obj [(kind, argument)] =>
    match FunctionRule.ofKind? kind argument with
    | some rule => .ok rule
    | none => .error (.badRule name)
  | .obj _ => .error (.badRule name)
  | .arr [.str kind] =>
    if FunctionRule.kinds.contains kind then .error (.ruleWithoutArgument kind.length)
    else .error (.badRule name)
  | .arr _ => .error (.badRule name)
  | .str _ => .error (.badRule name)
  | _ => .error .ruleWithoutParts

/-- The function entries of a section in order: each name in upper case, with its rule. -/
def functionEntries (fields : Fields Json) :
    Except SettingsFault (List (Text × FunctionRule)) :=
  fields.mapM fun (name, value) => do
    let rule ← functionRule name value
    return (Text.upper name, rule)

/-- The fields of a section that must have some; a missing section has none. -/
def sectionFields (sections : Fields Json) (name : Text) : Except SettingsFault (Fields Json) :=
  match sections.get? name with
  | none => .ok []
  | some (.obj fields) => .ok fields
  | some _ => .error .noFields

/-- Settings from their sections. Of several entries for one name the last counts. -/
def ofSections (sections : Fields Json) : Except SettingsFault Settings := do
  let types ← typeEntries (← sectionFields sections "types")
  let functions ← functionEntries (← sectionFields sections "functions")
  return ⟨sections, Fields.ofEntries types, Fields.ofEntries functions⟩

/-- The settings of a file with the given value. -/
def ofOverrides : Json → Except SettingsFault Settings
  | .obj overrides => ofSections (overlay builtInSections overrides)
  | _ => .error .noFields

/-- The settings of a source. A file that cannot be read, or is not JSON, changes nothing. -/
def load : Source → Except SettingsFault Settings
  | .builtIn | .unreadable => ofSections builtInSections
  | .text contents =>
    match Json.parse? contents with
    | some overrides => ofOverrides overrides
    | none => ofSections builtInSections
  | .value overrides => ofOverrides overrides

/-- The names of all functions with a rule, sorted by their characters. -/
def functionNames (settings : Settings) : List Text :=
  settings.functions.keys.mergeSort fun s t => !t.lex s fun c d => c.toNat < d.toNat

/-- The value under a path of keys; nothing where the path leads through no object or ends at
`null`. -/
def lookup (value : Json) : List Text → Option Json
  | [] => match value with
    | .null => none
    | _ => some value
  | key :: keys => (value.get? key).bind fun next => lookup next keys

/-- The value of a setting whose path is written with points. -/
def get? (settings : Settings) (path : Text) : Option Json :=
  lookup (.obj settings.sections) (Text.pieces '.' path)

/-- What stands for a statement that has no effect in SQLite. -/
def noop (settings : Settings) : Json :=
  (settings.get? "translation.noop_sql").getD (.str "SELECT 1=1")

/-- How generated parameter names begin. -/
def placeholderStem (settings : Settings) : Json :=
  (settings.get? "translation.placeholder_prefix").getD (.str "param")

/-- A setting as a whole number, cut off toward zero. -/
def wholeNumber : Json → Except SettingFault Int
  | .bool b => .ok (if b then 1 else 0)
  | .int n => .ok n
  | .float .nan => .error .wholeOfNaN
  | .float d =>
    match d.truncate? with
    | some n => .ok n
    | none => .error .outOfRange
  | .str s =>
    match Numeral.integer 10 s with
    | .ok n => .ok n
    | .error fault => .error (.numeral fault)
  | _ => .error .noNumber

/-- A setting as a floating-point number. -/
def realNumber : Json → Except SettingFault Double
  | .bool b => .ok (Double.ofRatio false (if b then 1 else 0) 1)
  | .int n =>
    match Double.ofInt? n with
    | some d => .ok d
    | none => .error .outOfRange
  | .float d => .ok d
  | .str s =>
    match Numeral.decimal s with
    | .ok d => .ok d
    | .error fault => .error (.numeral fault)
  | _ => .error .noNumber

/-- How many times a commit is tried again when the database is locked. -/
def maxRetries (settings : Settings) : Except SettingFault Int :=
  wholeNumber ((settings.get? "execution.max_retries").getD (.int 3))

/-- How many seconds pass before a commit is tried again. -/
def retryDelay (settings : Settings) : Except SettingFault Double :=
  realNumber ((settings.get? "execution.retry_delay_seconds").getD (.float builtInDelay))

end Settings

end Restate
