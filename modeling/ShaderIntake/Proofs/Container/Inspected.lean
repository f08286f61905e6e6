import ShaderIntake.Proofs.Container.Directory

/-!
# The bytes that are inspected

Reading a container and the header of its program looks at some of the bytes and at
no others.  Which ones depends on what stands there: the table says where the chunks
are, and their codes say which one holds the program.  `Inspected b` is the set of
these positions, and `SameInspected b b'` says that `b'` has the same bytes there.

Chunks may overlap, so an inspected position can lie in the payload of another chunk.
`SameInspected.sameDirectory` only needs that it is inspected.
-/

namespace ShaderIntake.Container

/-! ## The program part, located -/

/-- Where the part with the program lies. -/
def programExtent? (c : Container) : Option ChunkExtent :=
  (c.extents.find? fun x => x.fourcc = .dxil).or (c.extents.find? fun x => x.fourcc = .ildb)

/-- The part with the program is what lies there. -/
theorem programPart?_eq_map (c : Container) :
    c.programPart? = c.programExtent?.map fun x => x.read c.bytes := by
  rw [programPart?, chunk?, chunk?, firstWhere, firstWhere, programExtent?, Option.map_or]

/-! ## Inspected positions -/

/-- The positions that are looked at in a container. -/
inductive Inspected (b : Bytes) (p : Nat) : Prop where
  | magic (hstop : p < 4)
  | sizes (hstart : 24 ≤ p) (hstop : p < 32)
  | table (hstart : 32 ≤ p) (hstop : p < b.tableEnd)
  | chunkHeader {i : Nat} (hi : i < b.chunkCount) (hstart : b.offsetAt i ≤ p)
      (hstop : p < b.offsetAt i + 8)
  | programHeader {x : ChunkExtent} (hx : (declared b).programExtent? = some x)
      (hstart : x.start ≤ p) (hstop : p < x.start + min 24 x.size)

/-- The two byte strings have the same size and the same inspected bytes. -/
structure SameInspected (b b' : Bytes) : Prop where
  size_eq : b'.size = b.size
  byteAt_eq : ∀ p, Inspected b p → b'.byteAt p = b.byteAt p

variable {b b' : Bytes}

namespace SameInspected

variable (h : SameInspected b b')

include h

theorem word_eq {p : Nat} (hp : ∀ i, i < 4 → Inspected b (p + i)) : b'.word p = b.word p := by
  apply Bytes.word_congr
  intro i hi
  exact h.byteAt_eq _ (hp i hi)

theorem readAt_eq {p : Nat} (hp : ∀ i, i < 4 → Inspected b (p + i)) :
    FourCC.readAt b' p = FourCC.readAt b p := by
  apply FourCC.readAt_congr
  intro i hi
  exact h.byteAt_eq _ (hp i hi)

/-- Every position that the directory is read from is inspected. -/
theorem sameDirectory : SameDirectory b b' where
  size_eq := h.size_eq
  magic_eq := h.readAt_eq fun i hi => .magic (by omega)
  totalSize_eq := h.word_eq fun i hi => .sizes (by omega) (by omega)
  chunkCount_eq := h.word_eq fun i hi => .sizes (by omega) (by omega)
  offset_eq := by
    intro i hi
    have hend : b.tableEnd = 32 + 4 * b.chunkCount := rfl
    exact h.word_eq fun j hj => .table (by omega) (by omega)
  extent_eq := by
    intro i hi
    have hcode : FourCC.readAt b' (b.offsetAt i) = FourCC.readAt b (b.offsetAt i) :=
      h.readAt_eq fun j hj => .chunkHeader hi (by omega) (by omega)
    have hsize : b'.payloadSizeAt (b.offsetAt i) = b.payloadSizeAt (b.offsetAt i) :=
      congrArg UInt32.toNat (h.word_eq fun j hj => .chunkHeader hi (by omega) (by omega))
    rw [Bytes.extentAt, hcode, hsize, Bytes.extentAt]

theorem programExtent?_declared (hb : WellFormed b) :
    (declared b').programExtent? = (declared b).programExtent? := by
  rw [programExtent?, h.sameDirectory.extents_declared hb, programExtent?]

end SameInspected

/-! ## Located payloads -/

namespace WellFormed

variable (hb : WellFormed b) {x : ChunkExtent} (hx : x ∈ (declared b).extents)

include hb hx

theorem start_le_of_mem_extents : b.tableEnd + 8 ≤ x.start := by
  rw [hb.extents_declared] at hx
  obtain ⟨i, hi, rfl⟩ := List.mem_map.1 hx
  exact Nat.add_le_add_right (hb.chunkFits i (List.mem_range.1 hi)).start_le 8

theorem stop_le_of_mem_extents : x.start + x.size ≤ b.totalSize := by
  rw [hb.extents_declared] at hx
  obtain ⟨i, hi, rfl⟩ := List.mem_map.1 hx
  exact (hb.chunkFits i (List.mem_range.1 hi)).payload_le

theorem byteAt_read {i : Nat} (hi : i < x.size) :
    (x.read (declared b).bytes).data.byteAt i = b.byteAt (x.start + i) := by
  have hstop := hb.stop_le_of_mem_extents hx
  rw [ChunkExtent.read, Bytes.byteAt_extract, if_pos (by omega), declared,
    Bytes.byteAt_extract, Nat.zero_add, if_pos (by omega)]

end WellFormed

theorem mem_extents_of_programExtent? {c : Container} {x : ChunkExtent}
    (hx : c.programExtent? = some x) : x ∈ c.extents := by
  obtain hdxil | ⟨_, hildb⟩ := Option.or_eq_some_iff.1 hx
  · exact List.mem_of_find?_eq_some hdxil
  · exact List.mem_of_find?_eq_some hildb

end ShaderIntake.Container
