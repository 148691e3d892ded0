import Restate.CommandLine.Program
import Restate.Install.Recording

/-!
# The command line

`restate` restates a statement or a file; `install` restates a schema and writes the script that
creates it beside the database, for no database is linked here. Files are read before the program
runs and written after it.
-/

namespace Restate.CommandLine

/-- What stands at a path. A folder is opened and then cannot be read, so its failure names no
file; a path inside a file is not even opened. -/
def stateAt (path : Text) : IO PathState := do
  try
    let contents ← IO.FS.readFile (String.ofList path)
    return .file contents.toList
  catch
    | .inappropriateType none _ _ => return .folder
    | _ => return .nothing

/-- What stands at the paths that options name, and at the folder of the output. -/
def statesNamed (arguments : Option Arguments) : IO Files := do
  let value (long : String) : Text := (arguments.map (·.value long)).getD []
  let named := ["--input", "--output", "--config", "--schema"].map value
  let mut states : List (Text × PathState) := []
  for path in Files.folderPath (value "--output") :: named do
    states := (path, ← stateAt path) :: states
  let known := states
  return fun path => (known.lookup path).getD .nothing

def say (text : Text) : IO Unit :=
  IO.println (String.ofList text)

def sayTable (table : TextTable) : IO Unit := do
  say table.title
  for row in table.columns :: table.rows do
    say (List.intercalate " | ".toList row)

/-- Carries out what a run came to. -/
def carryOut (run : ProgramRun) : IO UInt32 := do
  for printed in run.printed do
    match printed with
    | .line text => say text
    | .table table => sayTable table
  IO.print (String.ofList run.hint)
  for notice in run.notices do
    IO.eprintln (String.ofList ("[" ++ notice.level.label ++ "] " ++ notice.message))
  match run.escaped with
  | some failure => IO.eprintln (String.ofList failure.message)
  | none => pure ()
  match run.written with
  | some (path, text) => IO.FS.writeFile (String.ofList path) (String.ofList text)
  | none => pure ()
  return run.exit.toUInt32

/-- Runs the program that restates. -/
def mainRestate (args : List Text) : IO UInt32 := do
  let files ← statesNamed (Arguments.read? restateOptions args)
  carryOut (restateProgram files args)

/-- Runs the program that installs, and writes the script of what it asked for. -/
def mainInstall (args : List Text) : IO UInt32 := do
  let files ← statesNamed (Arguments.read? installOptions args)
  let (run, recording) := installProgram Recording.engine files args Recording.start
  match recording.path with
  | some path => IO.FS.writeFile (String.ofList (path ++ ".sql")) (String.ofList recording.script)
  | none => pure ()
  carryOut run

end Restate.CommandLine

/-- Runs the program that the first argument names, and without such a name the one that
restates. -/
def main (args : List String) : IO UInt32 :=
  match args.map String.toList with
  | command :: rest =>
    if command == "install".toList then Restate.CommandLine.mainInstall rest
    else if command == "restate".toList then Restate.CommandLine.mainRestate rest
    else Restate.CommandLine.mainRestate (command :: rest)
  | [] => Restate.CommandLine.mainRestate []
