import ShaderIntake.Proofs.Container.Extent
import ShaderIntake.Proofs.Container.RoundTrip
import ShaderIntake.Proofs.Container.Signing

/-!
# Built and signed containers

Building with a checksum digests the finished container in one go, while its checksum field
still holds zeros.  Reading digests three pieces, the zeros of the field in the middle.
Both are the digest of the container with zeros in the field, so a container that was built
with its checksum is the built container, signed (`buildSigned_eq_ok`), and has the checksum
that reading computes.
-/

namespace ShaderIntake.Container

section LaidOut

variable {chunks : List Chunk} (hfits : builtSize chunks < UInt32.size)
  (hlength : chunks.length ≤ 4096)

include hfits

theorem totalSize_laidOut : (laidOut chunks).totalSize = (laidOut chunks).size := by
  rw [size_laidOut]
  exact totalSize_headBytes rfl hfits

include hlength

theorem wellFormed_laidOut_self : WellFormed (laidOut chunks) :=
  wellFormed_laidOut (ByteArray.append_empty).symm hfits hlength

theorem structuralMd5_laidOut :
    (declared (laidOut chunks)).structuralMd5 = Md5.digest (laidOut chunks) := by
  have hb := wellFormed_laidOut_self hfits hlength
  have hheader := hb.header_le
  have hwhole : (laidOut chunks).extract 0 (laidOut chunks).totalSize = laidOut chunks := by
    rw [totalSize_laidOut hfits]
    exact ByteArray.extract_zero_size
  have hzeros : (laidOut chunks).overwrite 4 (Bytes.zeros 16) = laidOut chunks := by
    apply Bytes.overwrite_eq_self
    · rw [Bytes.size_zeros]
      omega
    · rw [Bytes.size_zeros]
      exact extract_headBytes rfl
  rw [hb.structuralMd5_eq, hwhole, zeroedDigest, hzeros]

/-- Building and signing is signing what is built. -/
theorem buildSigned_eq_ok : buildSigned chunks = .ok (sign (laidOut chunks)) := by
  rw [buildSigned, build_eq_ok_iff.2 ⟨hfits, rfl⟩, ok_bind,
    (wellFormed_laidOut_self hfits hlength).sign_eq, structuralMd5_laidOut hfits hlength]
  rfl

/-- A container that was built and signed is read back in front of any bytes. -/
theorem parse_sign_laidOut (suffix : Bytes) :
    parse (sign (laidOut chunks) ++ suffix) = .ok (declared (sign (laidOut chunks))) := by
  have hsigned := wellFormed_sign (wellFormed_laidOut_self hfits hlength)
  rw [parse_append suffix hsigned.header_le hsigned.totalSize_le, hsigned.parse_eq_ok]

end LaidOut

/-- Signing writes into the checksum field alone. -/
theorem WellFormed.byteAt_sign {b : Bytes} (hb : WellFormed b) {i : Nat} (hi : i < 4 ∨ 20 ≤ i) :
    (sign b).byteAt i = b.byteAt i := by
  have hsize := hb.size_structuralMd5
  have hfield := field_le hb hsize
  rw [hb.sign_eq]
  obtain hbefore | hbehind := hi
  · exact Bytes.byteAt_overwrite_of_lt hfield hbefore
  · exact Bytes.byteAt_overwrite_of_le hfield (by omega)

/-- The structural checksum of a container is the digest of the container with zeros in the
checksum field, whatever its size.  Chunks that fit a container are built with it and
without it, and the two results have the same size and differ in the checksum field alone.
Both are read back in front of any bytes, with the same chunks, and the checksum of the
signed one matches. -/
theorem structuralMd5_is_one_scheme :
    (∀ (b : Bytes) (c : Container), parse b = .ok c →
        c.structuralMd5 =
          Md5.digest (Bytes.overwrite (b.extract 0 b.totalSize) 4 (Bytes.zeros 16))) ∧
      ∀ chunks : List Chunk, chunks.length ≤ 4096 → builtSize chunks < UInt32.size →
        ∃ b signed, build chunks = .ok b ∧ buildSigned chunks = .ok signed ∧
          signed.size = b.size ∧
          (∀ i, i < 4 ∨ 20 ≤ i → signed.byteAt i = b.byteAt i) ∧
          ∀ suffix : Bytes, ∃ c signedContainer,
            parse (b ++ suffix) = .ok c ∧ c.chunks = chunks ∧
              parse (signed ++ suffix) = .ok signedContainer ∧
              signedContainer.chunks = chunks ∧ signedContainer.checksumMatches = true := by
  constructor
  · intro b c hc
    rw [eq_declared_of_parse hc]
    exact (wellFormed_of_parse hc).structuralMd5_eq
  · intro chunks hlength hfits
    have hb := wellFormed_laidOut_self hfits hlength
    refine ⟨laidOut chunks, sign (laidOut chunks), build_eq_ok_iff.2 ⟨hfits, rfl⟩,
      buildSigned_eq_ok hfits hlength, size_sign _, fun _ hi => hb.byteAt_sign hi, ?_⟩
    intro suffix
    have hsuffix : laidOut chunks ++ suffix = laidOut chunks ++ suffix := rfl
    have hparse := (wellFormed_laidOut hsuffix hfits hlength).parse_eq_ok
    have hchunks := chunks_laidOut hsuffix hfits hlength
    have hsigned : (declared (sign (laidOut chunks))).chunks = chunks := by
      rw [chunks_sign hb]
      exact chunks_laidOut (ByteArray.append_empty).symm hfits hlength
    exact ⟨_, _, hparse, hchunks, parse_sign_laidOut hfits hlength suffix, hsigned,
      checksumMatches_sign hb⟩

end ShaderIntake.Container
