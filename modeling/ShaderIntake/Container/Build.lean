import ShaderIntake.Container
import ShaderIntake.Md5

/-!
# Building containers

`Container.build` lays out a list of chunks as a container: header, offset table,
and the chunks in order without gaps.  The checksum field holds zeros, or after
`Container.buildSigned` the structural checksum.

Counts, offsets and sizes are stored as 32-bit words.  One that does not fit is a
`Misfit`.
-/

namespace ShaderIntake

/-- The numbers that are stored as 32-bit words. -/
inductive StoredNumber where
  | chunkCount
  | chunkOffset
  | chunkSize
  | totalSize
  | programSize
  | bitcodeSize
deriving DecidableEq

def StoredNumber.text : StoredNumber → String
  | chunkCount => "chunk_count"
  | chunkOffset => "chunk offset"
  | chunkSize => "chunk size"
  | totalSize => "total_size"
  | programSize => "program size"
  | bitcodeSize => "bitcode size"

/-- A number that its 32-bit word cannot hold. -/
structure Misfit where
  number : StoredNumber
  value : Nat
deriving DecidableEq

def Misfit.message (m : Misfit) : String :=
  m.number.text ++ " " ++ toString m.value ++ " does not fit in u32"

/-- The word that stores a number. -/
def fitWord (number : StoredNumber) (value : Nat) : Except Misfit UInt32 :=
  if value < UInt32.size then .ok (UInt32.ofNat value) else .error ⟨number, value⟩

namespace Container

/-- The offsets and the bytes of `chunks` laid out one after the other from `offset` on. -/
def layOut : Nat → List Chunk → Except Misfit (List UInt32 × List Bytes)
  | _, [] => .ok ([], [])
  | offset, x :: rest => do
    let start ← fitWord .chunkOffset offset
    let size ← fitWord .chunkSize x.data.size
    let (starts, pieces) ← layOut (offset + (chunkHeaderSize + x.data.size)) rest
    return (start :: starts, x.fourcc.toBytes :: Bytes.ofWord size :: x.data :: pieces)

/-- The size of `chunks` laid out one after the other. -/
def chunksSize : List Chunk → Nat
  | [] => 0
  | x :: rest => chunkHeaderSize + x.data.size + chunksSize rest

/-- The size of the container that holds `chunks`. -/
def builtSize (chunks : List Chunk) : Nat :=
  headerSize + 4 * chunks.length + chunksSize chunks

/-- The container that holds `chunks`, with zeros in the checksum field. -/
def build (chunks : List Chunk) : Except Misfit Bytes := do
  let count ← fitWord .chunkCount chunks.length
  let (starts, pieces) ← layOut (headerSize + 4 * chunks.length) chunks
  let total ← fitWord .totalSize (builtSize chunks)
  return Bytes.concat <|
    FourCC.dxbc.toBytes :: Bytes.zeros 16 :: Bytes.ofWord 1 :: Bytes.ofWord total
      :: Bytes.ofWord count :: (starts.map Bytes.ofWord ++ pieces)

/-- The container that holds `chunks`, with the structural checksum. -/
def buildSigned (chunks : List Chunk) : Except Misfit Bytes := do
  let b ← build chunks
  return b.overwrite 4 (Md5.digest b)

end Container

end ShaderIntake
