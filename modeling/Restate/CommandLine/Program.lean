import Restate.CommandLine.Arguments
import Restate.CommandLine.Files
import Restate.CommandLine.Markup
import Restate.Install.Installer
import Restate.Install.Summary

/-!
# Programs

The two programs: one restates a statement or a file of them, the other installs a schema. A program
is a function from its arguments and the files it may read to what it prints, tells, writes and ends
with.
-/

namespace Restate

/-- Something a program prints. -/
inductive Printed where
  | line (text : Text)
  | table (table : TextTable)

/-- A failure that ends a program without a report of its own. -/
inductive Escape where
  | statement (error : Error)
  | settings (fault : SettingsFault)
  | setting (fault : SettingFault)
  | engine (cause : EngineError)
  /-- A path at which no file can be read or written. -/
  | file (path : Text) (fault : FileFault)
  /-- A text that cannot be encoded, and so is not written. -/
  | encoding (fault : EncodingFault)
  /-- A command that is not text has no place in a table. -/
  | commandNotText
  /-- Markup in a path that cannot be removed. -/
  | markup (fault : MarkupFault)

def Escape.message : Escape → Text
  | .statement error => error.message
  | .settings fault => fault.message
  | .setting fault => fault.message
  | .engine cause => cause.message
  | .file path fault => path ++ ": " ++ fault.message
  | .encoding fault => fault.message
  | .commandNotText => "A command is not text"
  | .markup fault => fault.message

/-- What running a program comes to. -/
structure ProgramRun where
  /-- The exit code: 0 for success, 1 for failure, 2 for arguments that make no sense. -/
  exit : Nat
  printed : List Printed
  /-- A plain hint, where the arguments ask for nothing. -/
  hint : Text
  notices : List Notice
  /-- The path and the text of the file that is written, if one is. After a failure this may be the
  beginning of a text. -/
  written : Option (Text × Text)
  escaped : Option Escape

namespace ProgramRun

/-- A run that succeeds and does nothing yet. -/
def done : ProgramRun :=
  ⟨0, [], [], [], none, none⟩

/-- A run refused for its arguments. -/
def misused : ProgramRun :=
  { done with exit := 2 }

/-- A run ended by a failure that nothing reports. -/
def escape (failure : Escape) : ProgramRun :=
  { done with exit := 1, escaped := some failure }

end ProgramRun

namespace CommandLine

/-- Where the settings come from, given the path of their file, which may be empty. -/
def settingsSource (files : Files) (path : Text) : Settings.Source :=
  if path.isEmpty then .builtIn
  else
    match files.read path with
    | .ok contents => .text contents
    | .error _ => .unreadable

/-- The same for settings that are read beside a text, and the characters that stand for lone
surrogates in them, which are not in the text. -/
def settingsBeside (files : Files) (path text : Text) : StandIns × Settings.Source :=
  match settingsSource files path with
  | .text contents =>
    let standIns := Json.standInsFor contents text
    match Json.readWith? standIns contents with
    | some overrides => (standIns, .value overrides)
    | none => (standIns, .unreadable)
  | source => (⟨none⟩, source)

def restateOptions : List OptionSpec :=
  [⟨"--input", some 'i'⟩, ⟨"--output", some 'o'⟩, ⟨"--inline", none⟩, ⟨"--prefix", some 'p'⟩,
   ⟨"--config", some 'c'⟩]

def installOptions : List OptionSpec :=
  [⟨"--db", none⟩, ⟨"--schema", some 's'⟩, ⟨"--prefix", some 'p'⟩, ⟨"--config", some 'c'⟩]

/-- The hint given where nothing is asked for. -/
def nothingAsked : Text :=
  "Provide either --input/--output or --inline. Use --help for details.\n"

/-- The row of a query in the table of a restated statement, escaped but for its number. -/
def queryRow (number : Nat) (query : Query) : Option (List Text) :=
  match query.command with
  | .sql text =>
    let params := if query.params.isEmpty then [] else query.paramsJson.write .readable
    some [Text.numeral number, Markup.escaped text, Markup.escaped params]
  | .setting _ => none

/-- The rows of queries, numbered from `number` on. -/
def queryRows (number : Nat) : List Query → Option (List (List Text))
  | [] => some []
  | query :: more => do
    let row ← queryRow number query
    return row :: (← queryRows (number + 1) more)

def queryTable (kind : StatementKind) (queries : List Query) : Option TextTable :=
  (queryRows 1 queries).map fun rows =>
    ⟨"MySQL → SQLite (" ++ kind.label ++ ")", ["#", "SQLite", "Params"], rows⟩

def failedRun (notices : List Notice) (error : Error) : ProgramRun :=
  if error.isReported then
    { ProgramRun.done with exit := 1, notices := notices ++ [.statementFailed error] }
  else { ProgramRun.escape (.statement error) with notices := notices }

/-- Restates one statement and prints its queries. -/
def runInline (settings : Settings) (sql : Text) : ProgramRun :=
  let report := restateStatement settings sql
  match report.outcome with
  | .error e => failedRun report.notices e
  | .ok (kind, queries) =>
    match queryTable kind queries with
    | some table =>
      { ProgramRun.done with printed := [.table table], notices := report.notices }
    | none => { ProgramRun.escape .commandNotText with notices := report.notices }

/-- How restating a file went: the notices, and the number of queries and the script, or the error.
Nothing is written for a file that cannot be restated as a whole. -/
def restateFile (settings : Settings) (contents output : Text) :
    List Notice × Except Error (Nat × Text) :=
  let report := BatchReport.ofBatch settings (Text.unifyLineEnds contents)
  match report.outcome with
  | .error e => (report.notices, .error e)
  | .ok queries =>
    (report.notices ++ [.scriptWritten queries.length output],
      .ok (queries.length, Script.render queries))

/-- Restates a file whose script cannot be written. This comes out only once the file is restated,
so an error of its statements wins. -/
def runUnwritable (settings : Settings) (contents output : Text) (fault : FileFault) : ProgramRun :=
  let report := BatchReport.ofBatch settings (Text.unifyLineEnds contents)
  match report.outcome with
  | .error e => failedRun report.notices e
  | .ok _ => { ProgramRun.escape (.file output fault) with notices := report.notices }

/-- Writes the script of queries, piece by piece. A piece that cannot be encoded ends this, and
leaves what is written before it. -/
def writeScript (standIns : StandIns) (notices : List Notice) (queries : List Query)
    (output : Text) : ProgramRun :=
  match standIns.encoded (Script.pieces queries) with
  | (script, none) =>
    { ProgramRun.done with
      notices := notices ++ [.scriptWritten queries.length output],
      written := some (output, script) }
  | (beginning, some fault) =>
    { ProgramRun.escape (.encoding fault) with
      notices := notices, written := some (output, beginning) }

/-- Restates a file and writes the script. -/
def runFile (standIns : StandIns) (settings : Settings) (files : Files) (input output : Text) :
    ProgramRun :=
  match files.read input, files.writingFault? output with
  | .error fault, _ => .escape (.file input fault)
  | .ok contents, some fault => runUnwritable settings contents output fault
  | .ok contents, none =>
    let report := BatchReport.ofBatch settings (Text.unifyLineEnds contents)
    match report.outcome with
    | .error e => failedRun report.notices e
    | .ok queries => writeScript standIns report.notices queries output

def runRestate (files : Files) (arguments : Arguments) : ProgramRun :=
  let inline := arguments.value "--inline"
  let input := arguments.value "--input"
  let output := arguments.value "--output"
  let contents :=
    match files.read input with
    | .ok contents => contents
    | .error _ => []
  let (standIns, source) :=
    settingsBeside files (arguments.value "--config") (inline ++ contents)
  match Settings.load source with
  | .error fault => .escape (.settings fault)
  | .ok settings =>
    if !inline.isEmpty then runInline settings inline
    else if !input.isEmpty && !output.isEmpty then runFile standIns settings files input output
    else { ProgramRun.done with hint := nothingAsked }

def restateProgram (files : Files) (args : List Text) : ProgramRun :=
  match Arguments.read? restateOptions args with
  | none => .misused
  | some arguments =>
    if arguments.help then .done
    else if !arguments.operands.isEmpty then .misused
    else runRestate files arguments

/-- Lines of which the markup is removed, one after another, up to the first where it cannot be. -/
def markedLines : List Text → List Printed × Option MarkupFault
  | [] => ([], none)
  | text :: more =>
    match Markup.plain text with
    | .error fault => ([], some fault)
    | .ok line =>
      let (printed, fault) := markedLines more
      (.line line :: printed, fault)

/-- What the installing program prints before it starts. -/
def installBanner (schema database : Text) : List Printed × Option MarkupFault :=
  markedLines ["MySQL → SQLite Schema Installer", "Schema: " ++ schema, "Database: " ++ database]

/-- What the installing program prints, and ends with, after an installation. -/
def installationRun (installation : Installer.Installation) : ProgramRun :=
  let failed (text : Text) : ProgramRun :=
    { ProgramRun.done with
      exit := 1, printed := [.line ("Installation failed: " ++ Markup.escaped text)] }
  let run : ProgramRun :=
    match installation.outcome with
    | .ok count =>
      { ProgramRun.done with
        printed := [.table (Summary.table installation.rows),
          .line ("Executed " ++ Text.numeral count ++ " queries")] }
    | .error (.statement e) =>
      if e.isReported then failed e.message else .escape (.statement e)
    | .error (.execution cause _) => failed (InstallError.executionMessage cause)
    | .error (.engine cause) => .escape (.engine cause)
    | .error (.setting fault) => .escape (.setting fault)
  { run with notices := installation.notices }

/-- The program that installs, with its arguments understood and its banner printed. -/
def runInstall {σ : Type} (engine : Engine σ) (files : Files) (arguments : Arguments) (s : σ) :
    ProgramRun × σ :=
  let path := arguments.value "--schema"
  match files.read path, Settings.load (settingsSource files (arguments.value "--config")) with
  | .error fault, _ => (.escape (.file path fault), s)
  | .ok _, .error fault => (.escape (.settings fault), s)
  | .ok schema, .ok settings =>
    let (installation, s) :=
      Installer.install engine settings (arguments.value "--db") false
        (Text.unifyLineEnds schema) s
    (installationRun installation, s)

/-- Whether the arguments name a database, and a schema at whose path something stands. -/
def namesInstallation (files : Files) (arguments : Arguments) : Bool :=
  match arguments.values.get? "--db", files.read (arguments.value "--schema") with
  | none, _ => false
  | some _, .error .missing => false
  | some _, _ => true

/-- The program that installs. The database and an existing schema have to be named. -/
def installProgram {σ : Type} (engine : Engine σ) (files : Files) (args : List Text) (s : σ) :
    ProgramRun × σ :=
  match Arguments.read? installOptions args with
  | none => (.misused, s)
  | some arguments =>
    let path := arguments.value "--schema"
    if arguments.help then (.done, s)
    else if path.contains '\x00' then (.escape (.file path .nullCharacter), s)
    else if !namesInstallation files arguments || !arguments.operands.isEmpty then (.misused, s)
    else
      match installBanner path (arguments.value "--db") with
      | (printed, some fault) => ({ ProgramRun.escape (.markup fault) with printed := printed }, s)
      | (printed, none) =>
        let (run, s) := runInstall engine files arguments s
        ({ run with printed := printed ++ run.printed }, s)

end CommandLine

end Restate
