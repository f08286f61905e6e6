import ShaderIntake.Container.Summary
import ShaderIntake.Proofs.Container.Chunks

/-!
# The bytes that locate the chunks

Reading a container looks at its size, its header, its table, and the code and the size
in front of each payload.  `SameDirectory b b'` says that `b` and `b'` are the same
there.  Then the one is a container when the other is (`SameDirectory.wellFormed`), and
the chunks are located in the same places (`SameDirectory.extents_declared`), whatever
stands in the checksum field, in the payloads and in the gaps.
-/

namespace ShaderIntake.Container

/-- The two byte strings have the same size and locate the same chunks. -/
structure SameDirectory (b b' : Bytes) : Prop where
  size_eq : b'.size = b.size
  magic_eq : FourCC.readAt b' 0 = FourCC.readAt b 0
  totalSize_eq : b'.word 24 = b.word 24
  chunkCount_eq : b'.word 28 = b.word 28
  offset_eq : ∀ i, i < b.chunkCount → b'.word (32 + 4 * i) = b.word (32 + 4 * i)
  extent_eq : ∀ i, i < b.chunkCount →
    b'.extentAt (b.offsetAt i) = b.extentAt (b.offsetAt i)

variable {b b' : Bytes}

namespace SameDirectory

variable (h : SameDirectory b b')

include h

theorem bytesTotalSize_eq : b'.totalSize = b.totalSize := by
  rw [Bytes.totalSize, h.totalSize_eq, Bytes.totalSize]

theorem bytesChunkCount_eq : b'.chunkCount = b.chunkCount := by
  rw [Bytes.chunkCount, h.chunkCount_eq, Bytes.chunkCount]

theorem offsetAt_eq {i : Nat} (hi : i < b.chunkCount) : b'.offsetAt i = b.offsetAt i := by
  rw [Bytes.offsetAt, h.offset_eq i hi, Bytes.offsetAt]

theorem payloadSizeAt_eq {i : Nat} (hi : i < b.chunkCount) :
    b'.payloadSizeAt (b.offsetAt i) = b.payloadSizeAt (b.offsetAt i) :=
  congrArg ChunkExtent.size (h.extent_eq i hi)

theorem wellFormed (hb : WellFormed b) : WellFormed b' := by
  apply hb.of_header_eq h.size_eq h.magic_eq h.bytesTotalSize_eq h.bytesChunkCount_eq
  intro i hi
  have hfits := hb.chunkFits i hi
  rw [h.offsetAt_eq hi]
  refine ⟨hfits.start_le, hfits.header_le, ?_⟩
  rw [h.payloadSizeAt_eq hi]
  exact hfits.payload_le

/-- The chunks are located in the same places. -/
theorem extents_declared (hb : WellFormed b) :
    (declared b').extents = (declared b).extents := by
  rw [(h.wellFormed hb).extents_declared, hb.extents_declared, h.bytesChunkCount_eq]
  apply List.map_congr_left
  intro i hi
  rw [h.offsetAt_eq (List.mem_range.1 hi), h.extent_eq i (List.mem_range.1 hi)]

theorem summary_declared (hb : WellFormed b) : (declared b').summary = (declared b).summary := by
  have htotal : (declared b').header.totalSize = (declared b).header.totalSize := h.totalSize_eq
  have hcount : (declared b').header.chunkCount = (declared b).header.chunkCount :=
    h.chunkCount_eq
  rw [summary, h.extents_declared hb, htotal, hcount]
  rfl

end SameDirectory

end ShaderIntake.Container
