import ShaderIntake.Container
import ShaderIntake.Md5

/-!
# The structural checksum

The structural checksum of a container is the MD5 digest of its bytes with the
checksum field taken as zeros.  Compilers sign with a different function, so a
container read from the outside need not carry it.

`Container.structuralMd5` computes it without a copy of the container: the four
bytes before the field, sixteen zeros, and the bytes behind the field go into one
digest.  `sign` writes it into the field.
-/

namespace ShaderIntake

namespace Container

/-- The bytes before and behind the checksum field. -/
def aroundChecksum? (c : Container) : Option (Bytes × Bytes) := do
  let before ← c.bytes.slice? 0 4
  let behind ← c.bytes.slice? 20 c.bytes.size
  return (before, behind)

/-- The digest of the container with zeros in the checksum field, empty if the
container is too short for a checksum field. -/
def structuralMd5 (c : Container) : Bytes :=
  match c.aroundChecksum? with
  | some (before, behind) =>
    (((Md5.Stream.start.feed before).feed (Bytes.zeros 16)).feed behind).finish
  | none => ByteArray.empty

/-- The stored checksum is the structural one. -/
def checksumMatches (c : Container) : Bool :=
  c.structuralMd5 == c.header.checksum

end Container

/-- The blob with the structural checksum in the checksum field; a blob that is no
container stays as it is. -/
def sign (b : Bytes) : Bytes :=
  match Container.parse b with
  | .ok c => b.overwrite 4 c.structuralMd5
  | .error _ => b

end ShaderIntake
