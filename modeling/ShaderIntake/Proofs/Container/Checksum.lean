import ShaderIntake.Container.Checksum
import ShaderIntake.Proofs.Container.Grammar
import ShaderIntake.Proofs.Md5.Streaming

/-!
# The structural checksum as one digest

`Container.structuralMd5` digests three pieces.  `structuralMd5_eq_digest` says that
this is the digest of the container with zeros written over the checksum field, and
`checksumMatches_declared` what the comparison with the stored checksum says about a
well-formed byte string.
-/

namespace ShaderIntake.Container

/-- The digest of the bytes of a container with zeros in the checksum field. -/
def zeroedDigest (bytes : Bytes) : Bytes :=
  Md5.digest (bytes.overwrite 4 (Bytes.zeros 16))

theorem aroundChecksum?_eq_some {c : Container} (hsize : 20 ≤ c.bytes.size) :
    c.aroundChecksum? = some (c.bytes.extract 0 4, c.bytes.extract 20 c.bytes.size) := by
  have hbefore : c.bytes.slice? 0 4 = some (c.bytes.extract 0 4) :=
    Bytes.slice?_eq_some ⟨by omega, by omega⟩
  have hbehind : c.bytes.slice? 20 c.bytes.size = some (c.bytes.extract 20 c.bytes.size) :=
    Bytes.slice?_eq_some ⟨hsize, Nat.le_refl _⟩
  rw [aroundChecksum?, hbefore, hbehind]
  rfl

/-- The three pieces digest like the container with zeros in the checksum field. -/
theorem structuralMd5_eq_digest {c : Container} (hsize : 20 ≤ c.bytes.size) :
    c.structuralMd5 = zeroedDigest c.bytes := by
  have hholds := ((Md5.Stream.start_holds.feed (c.bytes.extract 0 4)).feed
    (Bytes.zeros 16)).feed (c.bytes.extract 20 c.bytes.size)
  have hmessage : ByteArray.empty ++ c.bytes.extract 0 4 ++ Bytes.zeros 16
      ++ c.bytes.extract 20 c.bytes.size = c.bytes.overwrite 4 (Bytes.zeros 16) := by
    rw [ByteArray.empty_append, Bytes.overwrite, Bytes.size_zeros]
  rw [structuralMd5, aroundChecksum?_eq_some hsize, zeroedDigest, ← hmessage]
  exact hholds.finish_eq

/-- The checksum of a container matches if the one that its bytes store is the
structural one. -/
theorem checksumMatches_declared {b : Bytes} (hb : WellFormed b) :
    (declared b).checksumMatches = true ↔
      b.extract 4 20 = zeroedDigest (b.extract 0 b.totalSize) := by
  have hheader := hb.le_totalSize
  have hsize : 20 ≤ (declared b).bytes.size := by
    rw [hb.size_bytes]
    omega
  rw [checksumMatches, Bytes.beq_iff, structuralMd5_eq_digest hsize]
  exact eq_comm

end ShaderIntake.Container
