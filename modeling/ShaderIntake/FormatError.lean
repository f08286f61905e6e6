import ShaderIntake.Check
import ShaderIntake.FourCC
import ShaderIntake.Layout
import ShaderIntake.Size

/-!
# Format errors

`FormatError` has one constructor for each way in which a container or a program
can fail to be well formed.  `kind` groups the causes, `context` words one, and
`message` puts the name of the group before it.

Some causes guard reads that earlier checks already keep inside the bytes, and
sums that cannot leave 64 bits: `isDefensive` tells which.  They stay in the type
so that their absence from every answer can be stated.
-/

namespace ShaderIntake

/-- Why bytes are not a container, or a part not a program. -/
inductive FormatError where
  | headerTruncated (size : Nat)
  | magicUnreadable
  | badMagic (found : FourCC)
  | tooManyChunks (count : UInt32)
  | totalSizeTooSmall (totalSize : UInt32)
  | totalSizePastEnd (totalSize : UInt32) (size : Nat)
  | tablePastEnd (tableEnd size : Nat)
  | offsetIntoHead (index offset tableEnd : Nat)
  | chunkOffsetOverflow (index offset : Nat)
  | chunkHeaderOutside (index start stop size : Nat)
  | chunkSizeOverflow (index chunkSize : Nat)
  | chunkDataOutside (index : Nat) (fourcc : FourCC) (start stop size : Nat)
  | programTruncated (size : Nat)
  | programMagicUnreadable
  | badProgramMagic (found : FourCC)
  | programSizeOverflow (dwords : UInt32)
  | programSizeTooSmall (programSize : Nat)
  | programPastEnd (programSize size : Nat)
  | bitcodeOffsetOverflow
  | bitcodeSizeOverflow
  | bitcodeOverHeader (offset : Nat)
  | bitcodePastEnd (start stop programSize : Nat)
  | wordPositionOverflow
  | wordOutside (start stop size : Nat)
  | rangeOutside (start stop size : Nat)
deriving DecidableEq

/-- The groups of format errors. -/
inductive FormatError.Kind where
  /-- The container header is truncated or inconsistent. -/
  | malformedHeader
  /-- The chunk offset table or one of its entries is inconsistent. -/
  | malformedOffsets
  /-- A declared size or offset points outside. -/
  | outOfBounds
  /-- The payload of a chunk is not what its code says. -/
  | invalidChunk
deriving DecidableEq

namespace FormatError

/-- The name of the group that starts every message. -/
def Kind.title : Kind → String
  | malformedHeader => "malformed DXBC header"
  | malformedOffsets => "malformed DXBC chunk offsets"
  | outOfBounds => "DXBC data out of bounds"
  | invalidChunk => "invalid DXBC chunk"

def kind : FormatError → Kind
  | headerTruncated .. | magicUnreadable | badMagic .. | totalSizeTooSmall .. =>
    .malformedHeader
  | tooManyChunks .. | tablePastEnd .. | offsetIntoHead .. | chunkOffsetOverflow ..
  | chunkSizeOverflow .. => .malformedOffsets
  | totalSizePastEnd .. | chunkHeaderOutside .. | chunkDataOutside .. | programPastEnd ..
  | bitcodePastEnd .. | wordPositionOverflow | wordOutside .. | rangeOutside .. =>
    .outOfBounds
  | programTruncated .. | programMagicUnreadable | badProgramMagic .. | programSizeOverflow ..
  | programSizeTooSmall .. | bitcodeOffsetOverflow | bitcodeSizeOverflow
  | bitcodeOverHeader .. => .invalidChunk

/-- No bytes lead to the error: it guards a read or a sum that earlier checks keep in range. -/
def isDefensive : FormatError → Bool
  | magicUnreadable | chunkOffsetOverflow .. | chunkSizeOverflow .. | programMagicUnreadable
  | programSizeOverflow .. | bitcodeOffsetOverflow | bitcodeSizeOverflow
  | wordPositionOverflow | wordOutside .. | rangeOutside .. => true
  | _ => false

/-- The part of the container before the first chunk that holds `offset`: the
header comes first, and the offset table follows it. -/
def headRegion (offset : Nat) : String :=
  if offset < headerSize then "DXBC header" else "chunk offset table"

/-- What was wrong and where. -/
def context : FormatError → String
  | headerTruncated size => s!"need at least {headerSize} bytes, got {size}"
  | magicUnreadable => "failed to read magic"
  | badMagic found => s!"bad magic {found.quoted}, expected {FourCC.dxbc.quoted}"
  | tooManyChunks count => s!"chunk_count {count} exceeds maximum {maxChunkCount}"
  | totalSizeTooSmall totalSize =>
    s!"total_size {totalSize} is smaller than header size {headerSize}"
  | totalSizePastEnd totalSize size => s!"total_size {totalSize} exceeds buffer length {size}"
  | tablePastEnd tableEnd size =>
    s!"chunk offset table ends at {tableEnd}, but total_size is {size}"
  | offsetIntoHead index offset tableEnd =>
    s!"chunk {index} offset {offset} points into the {headRegion offset} (need >= {tableEnd})"
  | chunkOffsetOverflow index offset =>
    s!"chunk {index} offset {offset} overflows when reading header"
  | chunkHeaderOutside index start stop size =>
    s!"chunk {index} header at {start}..{stop} is outside total_size {size}"
  | chunkSizeOverflow index chunkSize =>
    s!"chunk {index} size {chunkSize} overflows when computing data range"
  | chunkDataOutside index fourcc start stop size =>
    s!"chunk {index} ({fourcc.text}) data at {start}..{stop} is outside total_size {size}"
  | programTruncated size => s!"DXIL program header needs {programHeaderSize} bytes, got {size}"
  | programMagicUnreadable => "failed to read DXIL magic"
  | badProgramMagic found =>
    s!"bad DXIL magic {found.quoted}, expected {FourCC.dxil.quoted}"
  | programSizeOverflow dwords => s!"program size {dwords} dwords overflows"
  | programSizeTooSmall programSize =>
    s!"program size {programSize} bytes is smaller than its header"
  | programPastEnd programSize size =>
    s!"program declares {programSize} bytes but the part holds {size}"
  | bitcodeOffsetOverflow => "bitcode offset overflows"
  | bitcodeSizeOverflow => "bitcode size overflows"
  | bitcodeOverHeader offset => s!"bitcode offset {offset} overlaps the program header"
  | bitcodePastEnd start stop programSize =>
    s!"bitcode at {start}..{stop} is outside the {programSize}-byte program"
  | wordPositionOverflow => "offset overflows when reading u32"
  | wordOutside start stop size =>
    s!"need 4 bytes at {start}..{stop}, but buffer length is {size}"
  | rangeOutside start stop size =>
    s!"range {start}..{stop} is outside the {size} bytes"

/-- The group and what was wrong in it. -/
def message (e : FormatError) : String :=
  e.kind.title ++ ": " ++ e.context

end FormatError

/-! ## Reads that fail with a format error -/

namespace Bytes

/-- The word at `p`, or the error of a read that leaves the bytes. -/
def readWord (b : Bytes) (p : Nat) : Except FormatError UInt32 := do
  let stop ← demand (Size.add? p 4) .wordPositionOverflow
  require (b.InRange p stop) (.wordOutside p stop b.size)
  return b.word p

/-- The bytes from `start` up to `stop`, or the error of a range that leaves the bytes. -/
def readRange (b : Bytes) (start stop : Nat) : Except FormatError Bytes :=
  demand (b.slice? start stop) (.rangeOutside start stop b.size)

theorem readWord_eq_ok {b : Bytes} {p : Nat} (h : p + 4 ≤ b.size) (hsize : p + 4 < Size.limit) :
    b.readWord p = .ok (b.word p) := by
  simp [readWord, Size.add?_eq_some hsize, require, InRange, h, bind, Except.bind, pure,
    Except.pure]

theorem readRange_eq_ok {b : Bytes} {start stop : Nat} (h : b.InRange start stop) :
    b.readRange start stop = .ok (b.extract start stop) := by
  simp [readRange, slice?_eq_some h]

end Bytes

end ShaderIntake
