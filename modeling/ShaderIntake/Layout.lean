/-!
# Fixed sizes

The sizes and limits that the formats of containers and programs fix.
-/

namespace ShaderIntake

/-- The size of the header of a container. -/
def headerSize : Nat := 32

/-- The size of the code and the size in front of a chunk's payload. -/
def chunkHeaderSize : Nat := 8

/-- The largest number of chunks that a container may declare. -/
def maxChunkCount : UInt32 := 4096

/-- The size of the header of a program. -/
def programHeaderSize : Nat := 24

/-- The position of the code in the header of a program; the bitcode offset counts
from here. -/
def programMagicPosition : Nat := 8

end ShaderIntake
