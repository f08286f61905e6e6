import ShaderIntake.Refusal

/-!
# Events

Loading and inspecting a blob report what they find as events.  A `Logged` value
comes with the events of its computation, in order.

`Event.md5Disabled` comes from loaders without the md5 feature only (see
`Loader.structuralMd5Unchecked`).
-/

namespace ShaderIntake

/-- Something that happened while a blob was looked at. -/
inductive Event where
  /-- The structural checksum was asked for where digests cannot be computed. -/
  | md5Disabled
  /-- A well-formed program was found. -/
  | programFound (version : ProgramVersion) (bitcodeSize : Nat)
  /-- A blob of `size` bytes was refused. -/
  | loadRefused (refusal : Refusal) (size : Nat)
  /-- An inspected blob is not a container. -/
  | notContainer (e : FormatError)
  /-- The program part of an inspected container holds no program. -/
  | badProgram (e : FormatError)
deriving DecidableEq

namespace Event

/-- How serious an event is.  What is found in a blob is for debugging; that a check was
left out is worth a warning. -/
def level : Event → String
  | md5Disabled => "WARN"
  | programFound .. | loadRefused .. | notContainer _ | badProgram _ => "DEBUG"

def message : Event → String
  | md5Disabled => "structural MD5 check requested but the md5 feature is disabled"
  | programFound .. => "found DXIL program"
  | loadRefused refusal _ => "DXIL load refused: " ++ refusal.message
  | notContainer e => "not a DXBC container: " ++ e.message
  | badProgram e => "DXIL program header: " ++ e.message

/-- The named values that come with the message. -/
def fields : Event → List (String × String)
  | programFound version bitcodeSize =>
    [("stage", version.stage.text), ("model", version.model.text),
      ("bitcode_len", toString bitcodeSize)]
  | loadRefused refusal size =>
    [("len", toString size), ("malformed", toString refusal.isMalformed)]
  | md5Disabled | notContainer _ | badProgram _ => []

end Event

/-- A value and the events on the way to it. -/
structure Logged (α : Type) where
  value : α
  events : List Event

end ShaderIntake
