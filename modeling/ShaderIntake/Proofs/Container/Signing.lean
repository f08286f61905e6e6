import ShaderIntake.Proofs.Container.Checksum
import ShaderIntake.Proofs.Container.Directory

/-!
# Writing the checksum

The checksum field lies in the header, and no chunk reaches into it: chunks start behind
the table.  So a container stays one whatever is written into the field, with the same
chunks and the same structural checksum; the field itself is the only thing that changes.

The lemmas on stamping are about any sixteen bytes in the field, and `sign` is the case
in which they are the structural checksum.
-/

namespace ShaderIntake

namespace Md5

@[simp] theorem size_toBytes (h : Chain) : h.toBytes.size = 16 := rfl

@[simp] theorem size_digest (message : Bytes) : (digest message).size = 16 := rfl

end Md5

namespace Container

variable {b : Bytes}

theorem WellFormed.structuralMd5_eq (hb : WellFormed b) :
    (declared b).structuralMd5 = zeroedDigest (b.extract 0 b.totalSize) := by
  have hheader := hb.le_totalSize
  apply structuralMd5_eq_digest
  rw [hb.size_bytes]
  omega

theorem WellFormed.size_structuralMd5 (hb : WellFormed b) :
    (declared b).structuralMd5.size = 16 := by
  rw [hb.structuralMd5_eq, zeroedDigest, Md5.size_digest]

/-! ## Another checksum in the field -/

section Stamp

variable (hb : WellFormed b) {checksum : Bytes} (hsize : checksum.size = 16)

include hb hsize

theorem field_le : 4 + checksum.size ≤ b.size := by
  have hheader := hb.header_le
  omega

/-- Behind the field everything stays. -/
theorem sameFrom_stamp : Bytes.SameFrom 20 b (b.overwrite 4 checksum) := by
  have hsame := Bytes.sameFrom_overwrite (field_le hb hsize)
  rwa [hsize] at hsame

/-- The checksum field is no part of the directory. -/
theorem sameDirectory_stamp : SameDirectory b (b.overwrite 4 checksum) := by
  have hfield := field_le hb hsize
  have hsame := sameFrom_stamp hb hsize
  refine ⟨hsame.size_eq, ?_, ?_, ?_, ?_, ?_⟩
  · exact FourCC.readAt_overwrite_of_lt hfield (by omega)
  · exact hsame.word_eq (by omega)
  · exact hsame.word_eq (by omega)
  · intro i _
    exact hsame.word_eq (by omega)
  · intro i hi
    have hstart := hb.le_offsetAt hi
    exact hsame.extentAt_eq (by omega)

theorem wellFormed_stamp : WellFormed (b.overwrite 4 checksum) :=
  (sameDirectory_stamp hb hsize).wellFormed hb

/-- No payload reaches into the checksum field. -/
theorem chunks_stamp : (declared (b.overwrite 4 checksum)).chunks = (declared b).chunks := by
  have hsame := sameDirectory_stamp hb hsize
  rw [(wellFormed_stamp hb hsize).chunks_declared, hb.chunks_declared]
  apply (sameFrom_stamp hb hsize).tableChunks_eq hsame.bytesChunkCount_eq
  intro i hi
  have hstart := hb.le_offsetAt hi
  exact ⟨hsame.offsetAt_eq hi, by omega⟩

/-- The structural checksum does not depend on what the field holds. -/
theorem structuralMd5_stamp :
    (declared (b.overwrite 4 checksum)).structuralMd5 = (declared b).structuralMd5 := by
  have hfield := field_le hb hsize
  have hheader := hb.le_totalSize
  have hinside : 4 + checksum.size ≤ ByteArray.size (b.extract 0 b.totalSize) := by
    rw [Bytes.size_extract_zero hb.totalSize_le]
    omega
  rw [(wellFormed_stamp hb hsize).structuralMd5_eq, hb.structuralMd5_eq, zeroedDigest,
    (sameDirectory_stamp hb hsize).bytesTotalSize_eq,
    Bytes.extract_zero_overwrite hfield (by omega) hb.totalSize_le,
    Bytes.overwrite_overwrite hinside (by rw [Bytes.size_zeros, hsize]), zeroedDigest]

theorem checksum_stamp : (declared (b.overwrite 4 checksum)).header.checksum = checksum := by
  have hwritten := Bytes.extract_overwrite (field_le hb hsize)
  rw [hsize] at hwritten
  exact hwritten

/-- What is written into the field matches exactly if it is the structural checksum. -/
theorem checksumMatches_stamp :
    (declared (b.overwrite 4 checksum)).checksumMatches = true ↔
      (declared b).structuralMd5 = checksum := by
  rw [checksumMatches, Bytes.beq_iff, structuralMd5_stamp hb hsize, checksum_stamp hb hsize]

end Stamp

/-! ## Signing -/

theorem WellFormed.sign_eq (hb : WellFormed b) :
    sign b = b.overwrite 4 (declared b).structuralMd5 := by
  rw [sign, hb.parse_eq_ok]

theorem sign_of_error {e : FormatError} (h : parse b = .error e) : sign b = b := by
  rw [sign, h]

theorem wellFormed_sign (hb : WellFormed b) : WellFormed (sign b) := by
  rw [hb.sign_eq]
  exact wellFormed_stamp hb hb.size_structuralMd5

theorem size_sign (b : Bytes) : (sign b).size = b.size := by
  cases hparse : parse b with
  | error e => rw [sign_of_error hparse]
  | ok c =>
    have hb := wellFormed_of_parse hparse
    rw [hb.sign_eq, Bytes.size_overwrite (field_le hb hb.size_structuralMd5)]

/-- Another checksum over a signed container is that checksum over the container. -/
theorem WellFormed.overwrite_sign (hb : WellFormed b) {checksum : Bytes}
    (hsize : checksum.size = 16) :
    (sign b).overwrite 4 checksum = b.overwrite 4 checksum := by
  rw [hb.sign_eq, Bytes.overwrite_overwrite (field_le hb hb.size_structuralMd5)
    (by rw [hsize, hb.size_structuralMd5])]

theorem WellFormed.structuralMd5_sign (hb : WellFormed b) :
    (declared (sign b)).structuralMd5 = (declared b).structuralMd5 := by
  rw [hb.sign_eq, structuralMd5_stamp hb hb.size_structuralMd5]

theorem chunks_sign (hb : WellFormed b) : (declared (sign b)).chunks = (declared b).chunks := by
  rw [hb.sign_eq, chunks_stamp hb hb.size_structuralMd5]

/-- A signed container passes the check of its checksum. -/
theorem checksumMatches_sign (hb : WellFormed b) :
    (declared (sign b)).checksumMatches = true := by
  rw [hb.sign_eq, checksumMatches_stamp hb hb.size_structuralMd5]

/-- Signing again changes nothing. -/
theorem sign_sign (b : Bytes) : sign (sign b) = sign b := by
  cases hparse : parse b with
  | error e => rw [sign_of_error hparse, sign_of_error hparse]
  | ok c =>
    have hb := wellFormed_of_parse hparse
    rw [(wellFormed_sign hb).sign_eq, hb.structuralMd5_sign,
      hb.overwrite_sign hb.size_structuralMd5, hb.sign_eq]

end Container

end ShaderIntake
