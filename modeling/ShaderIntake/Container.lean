import ShaderIntake.FormatError

/-!
# Containers

A DXBC container is a header of 32 bytes, a table with one offset for each
chunk, and the chunks, each a code, a size and a payload:

* bytes 0 to 3: the code `DXBC`;
* bytes 4 to 19: a checksum, which reading does not look at;
* bytes 20 to 23: a word that nothing reads;
* word at 24: the size of the whole container;
* word at 28: the number of chunks;
* from 32: the offset table.

`Container.parse` accepts bytes in which the whole table, and every chunk that
it points to, lies inside the declared size and behind the table.  What follows
the declared size is not part of the container.  Chunks may overlap, leave gaps
and come in any order.

A `Container` keeps its bytes and its table, and finds its chunks again from
the two: `extents` locates them, `chunks` reads their payloads as well.
-/

namespace ShaderIntake

/-- The fixed header of a container. -/
structure Header where
  magic : FourCC
  checksum : Bytes
  totalSize : UInt32
  chunkCount : UInt32

/-- A code and the payload that it names. -/
structure Chunk where
  fourcc : FourCC
  data : Bytes

/-- Where the payload of a chunk lies in the bytes of its container. -/
structure ChunkExtent where
  fourcc : FourCC
  start : Nat
  size : Nat
deriving DecidableEq

/-- A container whose table and chunks have been checked. -/
structure Container where
  header : Header
  bytes : Bytes
  offsets : List UInt32

/-! ## Chunks -/

namespace ChunkExtent

/-- The chunk whose header is at `offset`; `index` is its place in the table, for errors. -/
def locate (bytes : Bytes) (index offset : Nat) : Except FormatError ChunkExtent := do
  let start ← demand (Size.add? offset chunkHeaderSize) (.chunkOffsetOverflow index offset)
  let head ← demand (bytes.slice? offset start)
    (.chunkHeaderOutside index offset start bytes.size)
  let fourcc := FourCC.readAt head 0
  let size := (head.word 4).toNat
  let stop ← demand (Size.add? start size) (.chunkSizeOverflow index size)
  require (bytes.InRange start stop) (.chunkDataOutside index fourcc start stop bytes.size)
  return ⟨fourcc, start, size⟩

/-- The chunk with its payload. -/
def read (x : ChunkExtent) (bytes : Bytes) : Chunk :=
  ⟨x.fourcc, bytes.extract x.start (x.start + x.size)⟩

end ChunkExtent

namespace Container

/-! ## Reading a container -/

/-- The words of an offset table. -/
def tableWords (table : Bytes) : List UInt32 :=
  (List.range (table.size / 4)).map fun i => table.word (4 * i)

/-- One entry of the table: the chunk comes after the table and lies inside the bytes. -/
def checkEntry (bytes : Bytes) (tableEnd index : Nat) (offset : UInt32) :
    Except FormatError Unit := do
  require (tableEnd ≤ offset.toNat) (.offsetIntoHead index offset.toNat tableEnd)
  let _ ← ChunkExtent.locate bytes index offset.toNat

/-- The entries of the table from the one numbered `index` on, in order. -/
def checkEntries (bytes : Bytes) (tableEnd : Nat) : Nat → List UInt32 → Except FormatError Unit
  | _, [] => .ok ()
  | index, offset :: rest => do
    checkEntry bytes tableEnd index offset
    checkEntries bytes tableEnd (index + 1) rest

/-- The container at the start of `b`, or the first check that fails. -/
def parse (b : Bytes) : Except FormatError Container := do
  require (headerSize ≤ b.size) (.headerTruncated b.size)
  let magic ← demand (FourCC.ofBytes? b) .magicUnreadable
  require (magic = .dxbc) (.badMagic magic)
  let checksum ← b.readRange 4 20
  let totalSize ← b.readWord 24
  let chunkCount ← b.readWord 28
  require (chunkCount ≤ maxChunkCount) (.tooManyChunks chunkCount)
  require (headerSize ≤ totalSize.toNat) (.totalSizeTooSmall totalSize)
  require (totalSize.toNat ≤ b.size) (.totalSizePastEnd totalSize b.size)
  let bytes ← b.readRange 0 totalSize.toNat
  let tableEnd := headerSize + chunkCount.toNat * 4
  require (tableEnd ≤ bytes.size) (.tablePastEnd tableEnd bytes.size)
  let table ← bytes.readRange headerSize tableEnd
  let offsets := tableWords table
  checkEntries bytes tableEnd 0 offsets
  return ⟨⟨magic, checksum, totalSize, chunkCount⟩, bytes, offsets⟩

/-! ## What a container holds -/

/-- The chunks that the table points to, in table order, without their payloads.
An entry that points to no chunk is passed over. -/
def extents (c : Container) : List ChunkExtent :=
  c.offsets.filterMap fun offset => (ChunkExtent.locate c.bytes 0 offset.toNat).toOption

/-- The chunks in table order. -/
def chunks (c : Container) : List Chunk :=
  c.extents.map (·.read c.bytes)

/-- The first chunk whose code satisfies `p`. -/
def firstWhere (c : Container) (p : FourCC → Bool) : Option Chunk :=
  (c.extents.find? fun x => p x.fourcc).map (·.read c.bytes)

/-- The first chunk with the code `f`. -/
def chunk? (c : Container) (f : FourCC) : Option Chunk :=
  c.firstWhere fun g => g = f

/-- All chunks with the code `f`, in table order. -/
def chunksNamed (c : Container) (f : FourCC) : List Chunk :=
  (c.extents.filter fun x => x.fourcc = f).map (·.read c.bytes)

/-- The part with the DXIL program: the first one without debug info, if there is one. -/
def programPart? (c : Container) : Option Chunk :=
  (c.chunk? .dxil).or (c.chunk? .ildb)

/-- The first chunk with a token stream older than DXIL. -/
def tokenStream? (c : Container) : Option Chunk :=
  c.firstWhere FourCC.isTokenStream

theorem firstWhere_eq_find? (c : Container) (p : FourCC → Bool) :
    c.firstWhere p = c.chunks.find? fun x => p x.fourcc := by
  rw [firstWhere, chunks, List.find?_map]
  rfl

theorem chunksNamed_eq_filter (c : Container) (f : FourCC) :
    c.chunksNamed f = c.chunks.filter fun x => x.fourcc = f := by
  rw [chunksNamed, chunks, List.filter_map]
  rfl

end Container

end ShaderIntake
