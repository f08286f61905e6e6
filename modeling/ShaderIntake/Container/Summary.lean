import ShaderIntake.Container

/-!
# Descriptions of a container

`Container.summary` lists a container and its chunks for people, one line each.
`Header.describe` and `Chunk.describe` write out one value with its field names.
-/

namespace ShaderIntake

/-- A number with at least two digits. -/
def twoDigits (n : Nat) : String :=
  if n < 10 then "0" ++ toString n else toString n

/-- The summary's line about the chunk numbered `index`, with the line break before it. -/
def ChunkExtent.summaryLine (index : Nat) (x : ChunkExtent) : String :=
  "\n  [" ++ twoDigits index ++ "] " ++ x.fourcc.text ++ " " ++ toString x.size ++ " bytes"

namespace Container

/-- The lines about chunks, the first of which has the number `index`. -/
def summaryLines : Nat → List ChunkExtent → String
  | _, [] => ""
  | index, x :: rest => x.summaryLine index ++ summaryLines (index + 1) rest

/-- The container on one line, and a line for each chunk. -/
def summary (c : Container) : String :=
  c.header.magic.text ++ " total_size=" ++ toString c.header.totalSize
    ++ " chunk_count=" ++ toString c.header.chunkCount ++ summaryLines 0 c.extents

end Container

/-- The header with its field names. -/
def Header.describe (h : Header) : String :=
  let checksum := String.intercalate ", " (h.checksum.data.toList.map toString)
  "DxbcHeader \x7b magic: " ++ h.magic.quoted ++ ", checksum: [" ++ checksum
    ++ "], total_size: " ++ toString h.totalSize ++ ", chunk_count: " ++ toString h.chunkCount
    ++ " \x7d"

/-- The chunk with its field names and the size of its payload. -/
def Chunk.describe (x : Chunk) : String :=
  "DxbcChunk \x7b fourcc: " ++ x.fourcc.quoted ++ ", data_len: " ++ toString x.data.size ++ " \x7d"

end ShaderIntake
