import ShaderIntake.CommandLine
import ShaderIntake.Report

/-!
# Inspections from the command line

`Inspection.run` takes the arguments and a way to read files, and gives the outcome:
the text to print with the events on the way, or why there is none.
-/

namespace ShaderIntake.Inspection

/-- How an inspection ends. -/
inductive Outcome where
  /-- The arguments do not ask for an inspection. -/
  | usage (e : ArgError)
  /-- The file at `path` cannot be read. -/
  | unreadable (path reason : String)
  /-- The text of the report is printed. -/
  | printed (text : String) (events : List Event)

/-- The exit code of an outcome: asking for help is no failure. -/
def Outcome.exitCode : Outcome → Nat
  | usage .displayHelp => 0
  | usage _ => 2
  | unreadable .. => 1
  | printed .. => 0

/-- The messages of a file that cannot be read, the outermost first. -/
def unreadableChain (path reason : String) : List String :=
  ["read input " ++ path, reason]

/-- The report in the form that the arguments ask for. -/
def render (args : Args) (r : Report) : String :=
  if args.json then r.json.pretty ++ "\n" else r.text

/-- An inspection with arguments that have been read. -/
def inspectFile (read : String → Except String Bytes) (args : Args) : Outcome :=
  match read args.input with
  | .error reason => .unreadable args.input reason
  | .ok b =>
    let report := inspect args.input b ⟨args.maxBlobBytes, args.structuralMd5⟩
    .printed (render args report.value) report.events

/-- An inspection. -/
def run (read : String → Except String Bytes) (args : List String) : Outcome :=
  match CommandLine.parse args with
  | .error e => .usage e
  | .ok args => inspectFile read args

end ShaderIntake.Inspection
