import Restate.StatementKind
import Restate.Text.Quoted

/-!
# Errors

Why a statement cannot be restated. Errors are causes; their wording is in the `message` functions
alone. An error about a construct carries the whole statement where the statement is known, so that
whoever runs a batch can say which statement failed.
-/

namespace Restate

open Text

/-- What stops the lexer at some offset of a text. -/
inductive LexFault where
  | unterminatedComment
  | unterminatedIdentifier
  | unterminatedString
  /-- `0x` that no hexadecimal literal follows. -/
  | badHexadecimal
  /-- A number that runs into a name or a second point. -/
  | badNumber
  /-- A number whose exponent has no digits; the text through the character after the `e`. -/
  | badExponent (shown : Text)
  | strayCharacter (c : Char)
  /-- A digit sign that is no decimal digit where a number should begin. -/
  | digitWithoutValue
  deriving DecidableEq

def LexFault.message (offset : Nat) : LexFault → Text
  | .unterminatedComment => "Unterminated comment starting at offset " ++ numeral offset
  | .unterminatedIdentifier =>
    "Unterminated quoted identifier starting at offset " ++ numeral offset
  | .unterminatedString =>
    "Unterminated quoted string literal starting at offset " ++ numeral offset
  | .badHexadecimal => "Invalid hexadecimal literal at offset " ++ numeral offset
  | .badNumber => "Invalid numeric literal at offset " ++ numeral offset
  | .badExponent text =>
    "Invalid numeric literal " ++ shown text ++ " at offset " ++ numeral offset
  | .strayCharacter c => "Unexpected character " ++ shown [c] ++ " at offset " ++ numeral offset
  | .digitWithoutValue => "No number begins at offset " ++ numeral offset

/-- A construct, or a whole statement, that has no form in SQLite here. -/
inductive Unsupported where
  | unbalancedParentheses
  | emptyStatement
  | unrecognizedStart (text : Text)
  | unsupportedStatement (words : List Text)
  | malformedDefiner
  | alterOtherThanTable
  | alterSeveral
  | alterAdd (text : Text)
  | alterAction (text : Text)
  | invalidBitLiteral (text : Text)
  | positionalPlaceholders
  | onDuplicateKey
  | unexpectedEnd
  | expectedWord (words : List Text) (found : Text)
  | expectedIdentifier (found : Text)
  | expectedParenthesis (found : Text)
  | qualifiedTable
  | notSchema (kind : StatementKind)
  | unknownType (name : Text)
  | expectedType (found : Text)
  | keyPartLength
  | keyPart (text : Text)
  | defaultNear (text : Text)
  | defaultValue (text : Text)
  | columnAttribute (text column : Text)
  | createTableFrom (text : Text)
  | tableOption (text : Text)
  | emptyDefinition
  | constraintDefinition
  | constraintKind (word : Text)
  | noColumns (table : Text)
  | severalPrimaryKeys (table : Text)
  | unknownKeyColumn (name : Text)
  | afterDropIndex (text : Text)
  deriving DecidableEq

namespace Unsupported

def message : Unsupported → Text
  | .unbalancedParentheses => "Unbalanced parentheses"
  | .emptyStatement => "Empty statement"
  | .unrecognizedStart text => "Unrecognized statement start " ++ shown text
  | .unsupportedStatement words =>
    "Unsupported statement " ++ shown (List.intercalate [' '] words)
  | .malformedDefiner => "Malformed DEFINER clause"
  | .alterOtherThanTable => "Only ALTER TABLE statements are supported"
  | .alterSeveral => "ALTER TABLE with several specifications is not supported"
  | .alterAdd text => "ALTER TABLE ADD " ++ text ++ " is not supported"
  | .alterAction text => "ALTER TABLE " ++ text ++ " is not supported"
  | .invalidBitLiteral text => "Invalid bit literal " ++ shown text
  | .positionalPlaceholders =>
    "Cannot extract string literals from a statement with ? placeholders"
  | .onDuplicateKey => "INSERT ... ON DUPLICATE KEY UPDATE is not supported"
  | .unexpectedEnd => "Unexpected end of statement"
  | .expectedWord words found =>
    "Expected " ++ List.intercalate " or ".toList words ++ ", found " ++ shown found
  | .expectedIdentifier found => "Expected an identifier, found " ++ shown found
  | .expectedParenthesis found => "Expected '(', found " ++ shown found
  | .qualifiedTable => "Database-qualified table names are not supported"
  | .notSchema kind => kind.label ++ " is not a DDL statement"
  | .unknownType name => "Unsupported column type " ++ shown name
  | .expectedType found => "Expected a column type, found " ++ shown found
  | .keyPartLength => "Unsupported key part length"
  | .keyPart text => "Unsupported key part " ++ shown text
  | .defaultNear text => "Unsupported DEFAULT value near " ++ shown text
  | .defaultValue text => "Unsupported DEFAULT value " ++ shown text
  | .columnAttribute text column =>
    "Unsupported attribute " ++ shown text ++ " on column " ++ shown column
  | .createTableFrom text => "CREATE TABLE ... " ++ text ++ " is not supported"
  | .tableOption text => "Table option " ++ text ++ " is not supported"
  | .emptyDefinition => "Empty column definition"
  | .constraintDefinition => "Unsupported CONSTRAINT definition"
  | .constraintKind word => word ++ " constraints are not supported"
  | .noColumns table => "CREATE TABLE " ++ table ++ " has no columns"
  | .severalPrimaryKeys table => "Multiple primary keys defined on " ++ table
  | .unknownKeyColumn name => "PRIMARY KEY references unknown column " ++ shown name
  | .afterDropIndex text => "Unexpected " ++ shown text ++ " after DROP INDEX"

end Unsupported

/-- Why a numeral in a text has no value. -/
inductive NumeralFault where
  | notInteger (base : Nat) (text : Text)
  | notNumber (text : Text)
  /-- An integer numeral to base ten with too many digits to be read. -/
  | tooLongToRead (digits : Nat)
  /-- An integer with too many digits to be written out. -/
  | tooLongToWrite
  deriving DecidableEq

/-- Integers are read and written with at most this many decimal digits. -/
def NumeralFault.digitLimit : Nat := 4300

/-- What is wrong with the numeral. Of a refused integer numeral at most 200 characters are
shown. -/
def NumeralFault.message : NumeralFault → Text
  | .notInteger base text =>
    "invalid literal for int() with base " ++ numeral base ++ ": " ++ (shown text).take 200
  | .notNumber text => "could not convert string to float: " ++ shown text
  | .tooLongToRead digits =>
    "Exceeds the limit (4300 digits) for integer string conversion: value has "
      ++ numeral digits
      ++ " digits; use sys.set_int_max_str_digits() to increase the limit"
  | .tooLongToWrite =>
    "Exceeds the limit (4300 digits) for integer string conversion; "
      ++ "use sys.set_int_max_str_digits() to increase the limit"

/-- Why a statement is not restated. -/
inductive Error where
  | lexical (fault : LexFault) (offset : Nat) (statement : Text)
  /-- The tokens are not supported; the statement is carried where it is known. -/
  | unsupported (cause : Unsupported) (statement : Option Text)
  /-- A default value holds a bit literal without a value. -/
  | numeral (fault : NumeralFault)
  /-- A definition consists of a semicolon and nothing else. -/
  | loneSemicolon
  /-- The format of a date function is configured as something other than text. -/
  | formatNotText
  /-- The replacement of a function is configured as something other than text. -/
  | replacementNotText
  deriving DecidableEq

namespace Error

/-- A refusal of a construct, not yet tied to a statement. -/
def refuse (cause : Unsupported) : Error :=
  .unsupported cause none

/-- The error, tied to the statement it is about. -/
def about (statement : Text) : Error → Error
  | .unsupported cause none => .unsupported cause (some statement)
  | e => e

/-- A message followed by the statement it is about. -/
def withStatement (text statement : Text) : Text :=
  text ++ " (statement: " ++ shown statement ++ ")"

def message : Error → Text
  | .lexical fault offset statement => withStatement (fault.message offset) statement
  | .unsupported cause none => cause.message
  | .unsupported cause (some statement) => withStatement cause.message statement
  | .numeral fault => fault.message
  | .loneSemicolon => "A definition is a lone semicolon"
  | .formatNotText => "The format of a date function is not text"
  | .replacementNotText => "The replacement of a function is not text"

/-- Errors of the statement itself, which name it and are reported as such; the others come from
values that have no meaning and pass through every report. -/
def isReported : Error → Bool
  | .lexical .digitWithoutValue _ _ => false
  | .lexical _ _ _ => true
  | .unsupported _ _ => true
  | _ => false

end Error

end Restate
