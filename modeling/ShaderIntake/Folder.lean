import ShaderIntake.Bytes

/-!
# Folders

A `Folder` stands in for the file system where no real file is to be read, as in test
runs: it is a directory that holds files and nothing else, by their names.
`Folder.read` follows a path from it, as far as files and directories without
contents of their own allow.

`Main` reads real files and takes from here only the words for an error
(`ReadError.message`).  No theorem is about `Folder.read`: an inspection takes the way
a path is read as a parameter (`Inspection.run`), and what is proved of it holds for
every such way.
-/

namespace ShaderIntake

/-- A directory with files. -/
structure Folder where
  files : List (String × Bytes)

namespace Folder

/-- Why a path does not lead to a file. -/
inductive ReadError where
  | missing
  | notDirectory
  | isDirectory
  | nameTooLong
  | zeroByte
deriving DecidableEq

def ReadError.message : ReadError → String
  | missing => "No such file or directory (os error 2)"
  | notDirectory => "Not a directory (os error 20)"
  | isDirectory => "Is a directory (os error 21)"
  | nameTooLong => "File name too long (os error 36)"
  | zeroByte => "file name contained an unexpected NUL byte"

/-- Where a path has led so far. -/
inductive Place where
  /-- The folder itself. -/
  | inside
  /-- A directory above the folder. -/
  | above
  | file (contents : Bytes)

/-- One component of a path. -/
def step (folder : Folder) (place : Place) (component : String) : Except ReadError Place :=
  match place with
  | .file _ => .error .notDirectory
  | _ =>
    if component = "" ∨ component = "." then .ok place
    else if component = ".." then .ok .above
    else if 255 < component.utf8ByteSize then .error .nameTooLong
    else match place, folder.files.lookup component with
      | .inside, some contents => .ok (.file contents)
      | _, _ => .error .missing

/-- The components of a path, in order. -/
def walk (folder : Folder) : Place → List String → Except ReadError Place
  | place, [] => .ok place
  | place, component :: rest => do
    let place ← folder.step place component
    walk folder place rest

/-- The contents of the file that a path leads to. -/
def read (folder : Folder) (path : String) : Except ReadError Bytes :=
  if path.toList.contains '\x00' then .error .zeroByte
  else if 4096 ≤ path.utf8ByteSize then .error .nameTooLong
  else do
    let start : Place := if path.toList.head? = some '/' then .above else .inside
    match ← folder.walk start (path.splitOn "/") with
    | .file contents => return contents
    | _ => .error .isDirectory

end Folder

end ShaderIntake
