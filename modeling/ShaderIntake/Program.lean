import ShaderIntake.FormatError

/-!
# DXIL programs

The payload of a program part starts with a header of six words: the program
version, the size of the program in words, the code `DXIL`, the version of the
DXIL format, and offset and size of the bitcode.  The offset counts from the code.

`Program.parse` accepts a part whose program lies inside the part and whose
bitcode lies inside the program behind the header.  The bitcode itself is not
looked at.

The program version packs a `Stage` and a `Model` into one word;
`ProgramVersion.ofWord` takes it apart.
-/

namespace ShaderIntake

/-! ## Program versions -/

/-- The pipeline stage that a program is for. -/
inductive Stage where
  | pixel
  | vertex
  | geometry
  | hull
  | domain
  | compute
  | library
  | rayGeneration
  | intersection
  | anyHit
  | closestHit
  | miss
  | callable
  | mesh
  | amplification
  | node
  /-- A kind of program without a name here. -/
  | unknown (kind : UInt16)
deriving DecidableEq

/-- The stage with the number `kind`. -/
def Stage.ofKind (kind : UInt16) : Stage :=
  match kind.toNat with
  | 0 => pixel
  | 1 => vertex
  | 2 => geometry
  | 3 => hull
  | 4 => domain
  | 5 => compute
  | 6 => library
  | 7 => rayGeneration
  | 8 => intersection
  | 9 => anyHit
  | 10 => closestHit
  | 11 => miss
  | 12 => callable
  | 13 => mesh
  | 14 => amplification
  | 15 => node
  | _ => unknown kind

/-- The name of a stage; `other` comes in front of the number of one without a name. -/
def Stage.named (other : String) : Stage → String
  | pixel => "Pixel"
  | vertex => "Vertex"
  | geometry => "Geometry"
  | hull => "Hull"
  | domain => "Domain"
  | compute => "Compute"
  | library => "Library"
  | rayGeneration => "RayGeneration"
  | intersection => "Intersection"
  | anyHit => "AnyHit"
  | closestHit => "ClosestHit"
  | miss => "Miss"
  | callable => "Callable"
  | mesh => "Mesh"
  | amplification => "Amplification"
  | node => "Node"
  | unknown kind => other ++ "(" ++ toString kind ++ ")"

/-- The stage in messages. -/
def Stage.text (stage : Stage) : String :=
  stage.named "unknown"

/-- The stage in descriptions of a whole program. -/
def Stage.describe (stage : Stage) : String :=
  stage.named "Unknown"

/-- The first letters of the compiler profiles for a stage. -/
def Stage.profile? : Stage → Option String
  | pixel => some "ps"
  | vertex => some "vs"
  | geometry => some "gs"
  | hull => some "hs"
  | domain => some "ds"
  | compute => some "cs"
  | mesh => some "ms"
  | amplification => some "as"
  | library | rayGeneration | intersection | anyHit | closestHit | miss | callable | node =>
    some "lib"
  | unknown _ => none

/-- A shader model. -/
structure Model where
  major : UInt8
  minor : UInt8
deriving DecidableEq

namespace Model

def text (m : Model) : String :=
  toString m.major ++ "." ++ toString m.minor

def describe (m : Model) : String :=
  "ShaderModel \x7b major: " ++ toString m.major ++ ", minor: " ++ toString m.minor ++ " \x7d"

/-- Models are ordered by major number, then by minor number. -/
instance : Ord Model where
  compare a b := (compare a.major b.major).then (compare a.minor b.minor)

end Model

/-- What a program is written for. -/
structure ProgramVersion where
  stage : Stage
  model : Model
deriving DecidableEq

/-- The lowest four bits are the minor number of the model, the next four the major
number, and the upper sixteen the kind of program. -/
def ProgramVersion.ofWord (w : UInt32) : ProgramVersion :=
  ⟨Stage.ofKind (w / 0x10000).toUInt16, ⟨(w / 0x10 % 0x10).toUInt8, (w % 0x10).toUInt8⟩⟩

/-! ## Programs -/

/-- A program with its header taken apart. -/
structure Program where
  version : ProgramVersion
  sizeInWords : UInt32
  dxilVersion : UInt32
  bitcode : Bytes

namespace Program

/-- The program at the start of a part, or the first check that fails. -/
def parse (part : Bytes) : Except FormatError Program := do
  require (programHeaderSize ≤ part.size) (.programTruncated part.size)
  let version ← part.readWord 0
  let sizeInWords ← part.readWord 4
  let fromMagic ← part.readRange programMagicPosition part.size
  let magic ← demand (FourCC.ofBytes? fromMagic) .programMagicUnreadable
  require (magic = .dxil) (.badProgramMagic magic)
  let dxilVersion ← part.readWord 12
  let bitcodeOffset ← part.readWord 16
  let bitcodeSize ← part.readWord 20
  let size ← demand (Size.mul? sizeInWords.toNat 4) (.programSizeOverflow sizeInWords)
  require (programHeaderSize ≤ size) (.programSizeTooSmall size)
  require (size ≤ part.size) (.programPastEnd size part.size)
  let start ← demand (Size.add? programMagicPosition bitcodeOffset.toNat) .bitcodeOffsetOverflow
  let stop ← demand (Size.add? start bitcodeSize.toNat) .bitcodeSizeOverflow
  require (programHeaderSize ≤ start) (.bitcodeOverHeader bitcodeOffset.toNat)
  require (stop ≤ size) (.bitcodePastEnd start stop size)
  let bitcode ← part.readRange start stop
  return ⟨.ofWord version, sizeInWords, dxilVersion, bitcode⟩

/-- The major number of the DXIL format. -/
def dxilMajor (p : Program) : Nat :=
  p.dxilVersion.toNat / 0x100 % 0x100

/-- The minor number of the DXIL format. -/
def dxilMinor (p : Program) : Nat :=
  p.dxilVersion.toNat % 0x100

/-- The program with its field names and the size of its bitcode. -/
def describe (p : Program) : String :=
  "DxilProgramHeader \x7b stage: " ++ p.version.stage.describe
    ++ ", model: " ++ p.version.model.describe
    ++ ", size_in_dwords: " ++ toString p.sizeInWords
    ++ ", dxil_version: " ++ toString p.dxilVersion
    ++ ", bitcode_len: " ++ toString p.bitcode.size ++ " \x7d"

end Program

end ShaderIntake
