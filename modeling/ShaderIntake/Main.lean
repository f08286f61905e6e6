import ShaderIntake.Folder
import ShaderIntake.Inspection

/-!
# The command line

Reads the file that the arguments name, prints the report, and exits with the code
of the outcome.
-/

namespace ShaderIntake.Inspection

/-- Why the system did not read a file. -/
def systemReason : IO.Error → String
  | .noFileOrDirectory .. => Folder.ReadError.missing.message
  | .inappropriateType _ code _ =>
    if code = 21 then Folder.ReadError.isDirectory.message
    else Folder.ReadError.notDirectory.message
  | e => toString e

/-- The contents of a file, or why it cannot be read. -/
def readContents (path : String) : IO (Except String Bytes) := do
  try
    return .ok (← IO.FS.readBinFile path)
  catch e =>
    return .error (systemReason e)

def usageLine : String :=
  "usage: [--max-blob-bytes <BYTES>] [--structural-md5] [--json] <INPUT>"

/-- What is wrong with the arguments. -/
def usageFault : ArgError → String
  | .unknownArgument => "unexpected argument"
  | .missingRequiredArgument => "no input is given"
  | .invalidValue => "a value is missing"
  | .valueValidation => "BYTES is not a number of bytes"
  | .argumentConflict => "an option is given more than once"
  | .tooManyValues => "a value is given to an option that takes none"
  | .displayHelp => "help"

/-- Prints an outcome where it belongs. -/
def Outcome.write (outcome : Outcome) : IO Unit := do
  match outcome with
  | .usage .displayHelp => IO.println usageLine
  | .usage e => IO.eprintln ("error: " ++ usageFault e ++ "\n" ++ usageLine)
  | .unreadable path reason =>
    IO.eprintln ("error: " ++ String.intercalate ": " (unreadableChain path reason))
  | .printed text _ => IO.print text

/-- An inspection with the files of the system. -/
def runOnFiles (args : List String) : IO Outcome := do
  match CommandLine.parse args with
  | .error e => return .usage e
  | .ok args =>
    let contents ← readContents args.input
    return inspectFile (fun _ => contents) args

end ShaderIntake.Inspection

def main (args : List String) : IO UInt32 := do
  let outcome ← ShaderIntake.Inspection.runOnFiles args
  outcome.write
  return UInt32.ofNat outcome.exitCode
