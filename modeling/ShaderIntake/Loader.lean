import ShaderIntake.Container.Checksum
import ShaderIntake.Event

/-!
# Loading

A `Loader` looks at a blob and says why it cannot be loaded.  No program can be
lowered yet, so there is always a reason: `Loader.diagnose` finds it, and
`Loader.tryLoad` reports it as an event.

The first check that fails decides: no bytes, the limit, the container, the
structural checksum if the loader asks for it, the program part, the program.

Digests come with the md5 feature.  `diagnose` and `tryLoad` have it, and so has all
that is built on them.  Without it a loader cannot judge a checksum: it warns and goes
on.  How a checksum is judged is a parameter of `diagnoseWith` and `tryLoadWith`, and
nothing else depends on the feature.
-/

namespace ShaderIntake

/-- What a loader looks at and how strictly. -/
structure Loader where
  /-- Longer blobs are refused before anything is read. -/
  maxBlobBytes : Nat
  /-- The checksum has to be the structural one.  Without the md5 feature nothing checks it. -/
  structuralMd5 : Bool
deriving DecidableEq

/-- Sixteen mebibytes, well above what compilers write. -/
def defaultMaxBlobBytes : Nat := 16 * 1024 * 1024

/-- The loader with the default limit and no check of the checksum. -/
def Loader.standard : Loader := ⟨defaultMaxBlobBytes, false⟩

namespace Loader

/-- The reason to refuse a program part. -/
def diagnosePart (part : Bytes) : Logged Refusal :=
  match Program.parse part with
  | .ok program =>
    ⟨.unsupported program.version, [.programFound program.version program.bitcode.size]⟩
  | .error e => ⟨.program e, []⟩

/-- The reason to refuse a container whose checksum is settled. -/
def diagnoseContainer (c : Container) : Logged Refusal :=
  match c.programPart? with
  | some part => diagnosePart part.data
  | none =>
    match c.tokenStream? with
    | some chunk => ⟨.tokenStream chunk.fourcc, []⟩
    | none => ⟨.missingProgram, []⟩

/-- With the md5 feature the checksum passes if it is the structural one. -/
def structuralMd5Ok (c : Container) : Logged Bool :=
  ⟨c.checksumMatches, []⟩

/-- Without the md5 feature every checksum passes, with a warning. -/
def structuralMd5Unchecked (_ : Container) : Logged Bool :=
  ⟨true, [.md5Disabled]⟩

/-- The reason to refuse a container whose checksum `check` judges if it is asked to. -/
def diagnoseChecked (check : Container → Logged Bool) (loader : Loader) (c : Container) :
    Logged Refusal :=
  if loader.structuralMd5 then
    let passed := check c
    let found := if passed.value then diagnoseContainer c else ⟨.structuralMd5Mismatch, []⟩
    ⟨found.value, passed.events ++ found.events⟩
  else diagnoseContainer c

/-- The reason to refuse a blob, where `check` judges the checksum of a container. -/
def diagnoseWith (check : Container → Logged Bool) (loader : Loader) (b : Bytes) :
    Logged Refusal :=
  if b.size = 0 then ⟨.empty, []⟩
  else if loader.maxBlobBytes < b.size then ⟨.tooLarge b.size loader.maxBlobBytes, []⟩
  else match Container.parse b with
    | .error e => ⟨.container e, []⟩
    | .ok c => diagnoseChecked check loader c

/-- The reason to refuse a blob, with the md5 feature. -/
def diagnose (loader : Loader) (b : Bytes) : Logged Refusal :=
  diagnoseWith structuralMd5Ok loader b

/-- Whether a blob was loaded.  Nothing is read, since nothing can be loaded. -/
def load (_ : Loader) (_ : Bytes) : Logged Bool :=
  ⟨false, []⟩

/-- Loads a blob or reports the reason not to, where `check` judges the checksum of a
container. -/
def tryLoadWith (check : Container → Logged Bool) (loader : Loader) (b : Bytes) :
    Logged (Except Refusal Unit) :=
  let found := diagnoseWith check loader b
  ⟨.error found.value, found.events ++ [.loadRefused found.value b.size]⟩

/-- Loads a blob or reports the reason not to, with the md5 feature. -/
def tryLoad (loader : Loader) (b : Bytes) : Logged (Except Refusal Unit) :=
  tryLoadWith structuralMd5Ok loader b

end Loader

end ShaderIntake
