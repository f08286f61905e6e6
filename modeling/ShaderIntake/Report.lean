import ShaderIntake.Container.Summary
import ShaderIntake.Json
import ShaderIntake.Loader

/-!
# Reports

`inspect` looks at a blob and writes down what it is: the container and its chunks
if it is one, the program if there is one, and the reason why the blob was not
loaded.  A report has two forms, lines of text (`Report.text`) and a JSON object
(`Report.json`).
-/

namespace ShaderIntake

/-- One chunk in a report. -/
structure ChunkReport where
  fourcc : String
  sizeBytes : Nat
deriving DecidableEq

/-- A container in a report.  The summary is for the text form only. -/
structure ContainerReport where
  totalSize : Nat
  summary : String
  chunks : List ChunkReport
deriving DecidableEq

/-- A program in a report. -/
structure ProgramReport where
  part : String
  stage : String
  shaderModel : String
  dxilVersion : String
  bitcodeBytes : Nat
deriving DecidableEq

/-- What an inspection found. -/
structure Report where
  input : String
  sizeBytes : Nat
  container : Option ContainerReport
  program : Option ProgramReport
  loaded : Bool
  diagnosis : Option String
deriving DecidableEq

/-! ## Inspecting -/

namespace Report

def ofContainer (c : Container) : ContainerReport :=
  ⟨c.header.totalSize.toNat, c.summary, c.extents.map fun x => ⟨x.fourcc.text, x.size⟩⟩

def ofProgram (part : FourCC) (p : Program) : ProgramReport :=
  ⟨part.text, p.version.stage.text, p.version.model.text,
    toString p.dxilMajor ++ "." ++ toString p.dxilMinor, p.bitcode.size⟩

/-- What the program part of a container holds, and the event if that is no program. -/
def programOf (c : Container) : Logged (Option ProgramReport) :=
  match c.programPart? with
  | none => ⟨none, []⟩
  | some part =>
    match Program.parse part.data with
    | .ok program => ⟨some (ofProgram part.fourcc program), []⟩
    | .error e => ⟨none, [.badProgram e]⟩

/-- The container and the program in a blob, and the event if one of them is malformed. -/
def contentsOf (b : Bytes) : Logged (Option ContainerReport × Option ProgramReport) :=
  match Container.parse b with
  | .ok c =>
    let program := programOf c
    ⟨(some (ofContainer c), program.value), program.events⟩
  | .error e => ⟨(none, none), [.notContainer e]⟩

end Report

/-- The report on a blob that came from `input`, and the events of looking at it and
then of having it loaded by `loader`. -/
def inspect (input : String) (b : Bytes) (loader : Loader) : Logged Report :=
  let contents := Report.contentsOf b
  let outcome := loader.tryLoad b
  let (loaded, diagnosis) : Bool × Option String :=
    match outcome.value with
    | .ok () => (true, none)
    | .error refusal => (false, some refusal.message)
  ⟨⟨input, b.size, contents.value.1, contents.value.2, loaded, diagnosis⟩,
    contents.events ++ outcome.events⟩

/-! ## The two forms of a report -/

namespace Report

/-- The report as lines of text. -/
def text (r : Report) : String :=
  let container := match r.container with
    | some c => c.summary ++ "\n"
    | none => "container: none\n"
  let program := match r.program with
    | some p => "program: " ++ p.part ++ " " ++ p.stage ++ " sm" ++ p.shaderModel
        ++ " dxil" ++ p.dxilVersion ++ " (" ++ toString p.bitcodeBytes ++ " bitcode bytes)\n"
    | none => ""
  let load := match r.diagnosis with
    | some reason => "load: failed: " ++ reason ++ "\n"
    | none => "load: ok\n"
  "input: " ++ r.input ++ " (" ++ toString r.sizeBytes ++ " bytes)\n"
    ++ container ++ program ++ load

def chunkJson (x : ChunkReport) : Json :=
  .object [("fourcc", .text x.fourcc), ("sizeBytes", .number x.sizeBytes)]

def containerJson (c : ContainerReport) : Json :=
  .object [("totalSize", .number c.totalSize), ("chunks", .list (c.chunks.map chunkJson))]

def programJson (p : ProgramReport) : Json :=
  .object [("part", .text p.part), ("stage", .text p.stage),
    ("shaderModel", .text p.shaderModel), ("dxilVersion", .text p.dxilVersion),
    ("bitcodeBytes", .number p.bitcodeBytes)]

/-- The document for a value that may be absent. -/
def orNull {α : Type} (json : α → Json) : Option α → Json
  | some a => json a
  | none => .null

/-- The report as a JSON object, without the summary. -/
def json (r : Report) : Json :=
  .object [("input", .text r.input), ("sizeBytes", .number r.sizeBytes),
    ("container", orNull containerJson r.container), ("program", orNull programJson r.program),
    ("loaded", .bool r.loaded), ("diagnosis", orNull Json.text r.diagnosis)]

end Report

end ShaderIntake
