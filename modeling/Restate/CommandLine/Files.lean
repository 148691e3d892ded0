import Restate.Text.Basic

/-!
# Files

The files a program reads and writes, as far as its run depends on them: what stands at each path
before it runs. A file is written where one is already, or in a folder that exists.
-/

namespace Restate

/-- What stands at a path. -/
inductive PathState where
  | file (contents : Text)
  | folder
  | nothing

/-- Why there is no file to read, or none can be written, at a path. -/
inductive FileFault where
  /-- Nothing stands there, or the folder of the file is missing. -/
  | missing
  | folder
  /-- What should be the folder of the file is itself a file. -/
  | insideFile
  /-- A null character is in no path. -/
  | nullCharacter
  deriving DecidableEq, Repr

def FileFault.message : FileFault → Text
  | .missing => "no such file or folder"
  | .folder => "a folder and not a file"
  | .insideFile => "inside a file"
  | .nullCharacter => "embedded null byte"

/-- What stands at every path. -/
abbrev Files := Text → PathState

namespace Files

def folderPath (path : Text) : Text :=
  match path.reverse.dropWhile (· != '/') with
  | [] => "."
  | ['/'] => "/"
  | _ :: reversed => reversed.reverse

def read (files : Files) (path : Text) : Except FileFault Text :=
  if path.contains '\x00' then .error .nullCharacter
  else
    match files path with
    | .file contents => .ok contents
    | .folder => .error .folder
    | .nothing => .error .missing

/-- Why no file can be written at a path, if it cannot. -/
def writingFault? (files : Files) (path : Text) : Option FileFault :=
  if path.contains '\x00' then some .nullCharacter
  else
    match files path with
    | .file _ => none
    | .folder => some .folder
    | .nothing =>
      match files (folderPath path) with
      | .folder => none
      | .file _ => some .insideFile
      | .nothing => some .missing

end Files

end Restate
