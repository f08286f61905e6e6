import ShaderIntake.Container
import ShaderIntake.Proofs.Bytes

/-!
# The byte strings that are containers

`WellFormed` says on the bytes alone, without running a check, when a byte string
is a container: its header, its size, its table and every chunk that the table
points to.  `declared` is the container that the words of a byte string describe,
well formed or not.

Every position is a word of the byte string: `totalSize` and `chunkCount` in the
header, `offsetAt` in the table, and `payloadSizeAt` behind the code of a chunk.
They read zeros past the end, so they are defined for any byte string.

The main statement is `parse_eq_ok_iff`: reading gives a container exactly on
well-formed byte strings, and it gives the declared one.  It is assembled from

* `parse_eq` and `ChunkExtent.locate_eq`, which take the reads and sums that cannot
  fail out of the readers, so that only the checks remain;
* `checkEntry_eq_ok_iff` for one entry and `checkEntries_eq_ok_iff`, the induction
  over the table.
-/

namespace ShaderIntake

namespace Bytes

/-! ## The words of a container -/

/-- The declared size of the whole container. -/
def totalSize (b : Bytes) : Nat :=
  (b.word 24).toNat

/-- The declared number of chunks. -/
def chunkCount (b : Bytes) : Nat :=
  (b.word 28).toNat

/-- Where the offset table ends. -/
def tableEnd (b : Bytes) : Nat :=
  32 + 4 * b.chunkCount

/-- Where chunk `i` starts. -/
def offsetAt (b : Bytes) (i : Nat) : Nat :=
  (b.word (32 + 4 * i)).toNat

/-- The size of the payload of the chunk that starts at `offset`. -/
def payloadSizeAt (b : Bytes) (offset : Nat) : Nat :=
  (b.word (offset + 4)).toNat

/-- The words of the offset table. -/
def tableOffsets (b : Bytes) : List UInt32 :=
  (List.range b.chunkCount).map fun i => b.word (32 + 4 * i)

/-- The code and the payload of the chunk that starts at `offset`. -/
def chunkAt (b : Bytes) (offset : Nat) : Chunk :=
  ⟨FourCC.readAt b offset,
    b.extract (offset + 8) (offset + 8 + b.payloadSizeAt offset)⟩

end Bytes

namespace Container

/-! ## Well-formed byte strings -/

/-- The chunk that starts at `offset` lies between `start` and `stop`, its header
and its payload. -/
structure ChunkFits (b : Bytes) (start stop offset : Nat) : Prop where
  start_le : start ≤ offset
  header_le : offset + 8 ≤ stop
  payload_le : offset + 8 + b.payloadSizeAt offset ≤ stop

instance (b : Bytes) (start stop offset : Nat) : Decidable (ChunkFits b start stop offset) :=
  decidable_of_iff
    (start ≤ offset ∧ offset + 8 ≤ stop ∧ offset + 8 + b.payloadSizeAt offset ≤ stop)
    ⟨fun h => ⟨h.1, h.2.1, h.2.2⟩, fun h => ⟨h.start_le, h.header_le, h.payload_le⟩⟩

/-- The byte string is a container, or starts with one. -/
structure WellFormed (b : Bytes) : Prop where
  header_le : 32 ≤ b.size
  magic : FourCC.readAt b 0 = .dxbc
  chunkCount_le : b.chunkCount ≤ 4096
  le_totalSize : 32 ≤ b.totalSize
  totalSize_le : b.totalSize ≤ b.size
  tableEnd_le : b.tableEnd ≤ b.totalSize
  chunkFits : ∀ i, i < b.chunkCount →
    ChunkFits b b.tableEnd b.totalSize (b.offsetAt i)

instance (b : Bytes) : Decidable (WellFormed b) :=
  decidable_of_iff
    (32 ≤ b.size ∧ FourCC.readAt b 0 = .dxbc ∧ b.chunkCount ≤ 4096 ∧ 32 ≤ b.totalSize ∧
      b.totalSize ≤ b.size ∧ b.tableEnd ≤ b.totalSize ∧
      ∀ i, i < b.chunkCount → ChunkFits b b.tableEnd b.totalSize (b.offsetAt i))
    ⟨fun ⟨h1, h2, h3, h4, h5, h6, h7⟩ => ⟨h1, h2, h3, h4, h5, h6, h7⟩,
      fun ⟨h1, h2, h3, h4, h5, h6, h7⟩ => ⟨h1, h2, h3, h4, h5, h6, h7⟩⟩

/-- Behind an equal header any entries will do whose chunks fit. -/
theorem WellFormed.of_header_eq {b b' : Bytes} (hb : WellFormed b) (hsize : b'.size = b.size)
    (hmagic : FourCC.readAt b' 0 = FourCC.readAt b 0) (htotal : b'.totalSize = b.totalSize)
    (hcount : b'.chunkCount = b.chunkCount)
    (hfits : ∀ i, i < b.chunkCount → ChunkFits b' b.tableEnd b.totalSize (b'.offsetAt i)) :
    WellFormed b' := by
  have hend : b'.tableEnd = b.tableEnd := by rw [Bytes.tableEnd, hcount, Bytes.tableEnd]
  constructor
  case header_le =>
    rw [hsize]
    exact hb.header_le
  case magic =>
    rw [hmagic]
    exact hb.magic
  case chunkCount_le =>
    rw [hcount]
    exact hb.chunkCount_le
  case le_totalSize =>
    rw [htotal]
    exact hb.le_totalSize
  case totalSize_le =>
    rw [htotal, hsize]
    exact hb.totalSize_le
  case tableEnd_le =>
    rw [hend, htotal]
    exact hb.tableEnd_le
  case chunkFits =>
    rw [hcount, hend, htotal]
    exact hfits

/-- The header that the first words of `b` describe. -/
def declaredHeader (b : Bytes) : Header :=
  ⟨.dxbc, b.extract 4 20, b.word 24, b.word 28⟩

/-- The container that the words of `b` describe. -/
def declared (b : Bytes) : Container :=
  ⟨declaredHeader b, b.extract 0 b.totalSize, b.tableOffsets⟩

end Container

/-! ## One chunk -/

section Chunk

variable (b : Bytes) (index offset : Nat)

/-- Locating a chunk checks where its header and its payload end. -/
theorem ChunkExtent.locate_eq (hoffset : offset < UInt32.size) :
    locate b index offset = (do
      require (offset + 8 ≤ b.size)
        (.chunkHeaderOutside index offset (offset + 8) b.size)
      require (offset + 8 + b.payloadSizeAt offset ≤ b.size)
        (.chunkDataOutside index (FourCC.readAt b offset) (offset + 8)
          (offset + 8 + b.payloadSizeAt offset) b.size)
      return ⟨FourCC.readAt b offset, offset + 8, b.payloadSizeAt offset⟩) := by
  have hword : b.payloadSizeAt offset < UInt32.size := (b.word (offset + 4)).toNat_lt
  have hstart : Size.add? offset chunkHeaderSize = some (offset + 8) :=
    Size.add?_eq_some (by simp only [UInt32.size, Size.limit, chunkHeaderSize] at *; omega)
  have hstop : Size.add? (offset + 8) (b.payloadSizeAt offset) =
      some (offset + 8 + b.payloadSizeAt offset) :=
    Size.add?_eq_some (by simp only [UInt32.size, Size.limit] at *; omega)
  rw [locate, hstart, demand_some, ok_bind]
  by_cases hheader : offset + 8 ≤ b.size
  · rw [require_bind_of_pos hheader]
    have hrange : b.InRange offset (offset + 8) := ⟨by omega, hheader⟩
    have hcode : FourCC.readAt (b.extract offset (offset + 8)) 0 = FourCC.readAt b offset :=
      FourCC.readAt_extract (by omega)
    have hsize : (Bytes.word (b.extract offset (offset + 8)) 4).toNat =
        b.payloadSizeAt offset := by
      rw [Bytes.word_extract (by omega), Bytes.payloadSizeAt]
    have hpayload : b.InRange (offset + 8) (offset + 8 + b.payloadSizeAt offset) ↔
        offset + 8 + b.payloadSizeAt offset ≤ b.size :=
      ⟨fun h => h.2, fun h => ⟨by omega, h⟩⟩
    rw [Bytes.slice?_eq_some hrange, demand_some, ok_bind]
    simp only [hcode, hsize, hstop, demand_some, ok_bind]
    rw [require_congr hpayload]
  · rw [require_bind_of_neg hheader]
    have hnone : b.slice? offset (offset + 8) = none := by
      simp [Bytes.slice?, Bytes.InRange, hheader]
    rw [hnone, demand_none, error_bind]

theorem ChunkExtent.locate_eq_ok (hoffset : offset < UInt32.size)
    (hpayload : offset + 8 + b.payloadSizeAt offset ≤ b.size) :
    locate b index offset =
      .ok ⟨FourCC.readAt b offset, offset + 8, b.payloadSizeAt offset⟩ := by
  have hheader : offset + 8 ≤ b.size := by omega
  rw [locate_eq b index offset hoffset]
  simp [require, hheader, hpayload, pure, Except.pure]

end Chunk

namespace Container

section Entries

variable (b : Bytes) (start : Nat)

theorem checkEntry_eq_ok_iff (index : Nat) (offset : UInt32) :
    checkEntry b start index offset = .ok () ↔ ChunkFits b start b.size offset.toNat := by
  rw [checkEntry, ChunkExtent.locate_eq b index offset.toNat offset.toNat_lt]
  simp only [bind_assoc, require_bind_eq_ok]
  constructor
  · intro h
    exact ⟨h.1, h.2.1, h.2.2.1⟩
  · intro h
    exact ⟨h.start_le, h.header_le, h.payload_le, rfl⟩

/-- A table passes exactly when every chunk fits. -/
theorem checkEntries_eq_ok_iff (index : Nat) (offsets : List UInt32) :
    checkEntries b start index offsets = .ok () ↔
      ∀ offset ∈ offsets, ChunkFits b start b.size offset.toNat := by
  induction offsets generalizing index with
  | nil => simp [checkEntries]
  | cons offset rest ih =>
    rw [checkEntries, List.forall_mem_cons, ← checkEntry_eq_ok_iff b start index,
      ← ih (index + 1)]
    cases checkEntry b start index offset with
    | ok => simp
    | error e => simp [bind, Except.bind]

end Entries

/-! ## The whole container -/

section Parse

variable (b : Bytes)

theorem tableWords_declared (htable : b.tableEnd ≤ b.totalSize)
    (htotal : b.totalSize ≤ b.size) :
    tableWords ((b.extract 0 b.totalSize).extract 32 b.tableEnd) = b.tableOffsets := by
  have hend : b.tableEnd = 32 + 4 * b.chunkCount := rfl
  have hrange : (b.extract 0 b.totalSize).extract 32 b.tableEnd = b.extract 32 b.tableEnd := by
    rw [Bytes.extract_extract_of_le (by omega), Nat.zero_add, Nat.zero_add]
  have hsize : (ByteArray.size (b.extract 32 b.tableEnd)) / 4 = b.chunkCount := by
    rw [Bytes.size_extract_of_le (by omega)]
    omega
  rw [hrange, tableWords, hsize, Bytes.tableOffsets]
  apply List.map_congr_left
  intro i hi
  have hlt := List.mem_range.1 hi
  exact Bytes.word_extract (by omega)

theorem readRange_table (htable : b.tableEnd ≤ b.totalSize) (htotal : b.totalSize ≤ b.size) :
    Bytes.readRange (b.extract 0 b.totalSize) 32 b.tableEnd =
      .ok ((b.extract 0 b.totalSize).extract 32 b.tableEnd) := by
  apply Bytes.readRange_eq_ok
  constructor
  · unfold Bytes.tableEnd
    omega
  · rw [Bytes.size_extract_zero htotal]
    exact htable

/-- Reading a container, with the reads that cannot fail taken out. -/
theorem parse_eq : parse b = (do
    require (32 ≤ b.size) (.headerTruncated b.size)
    require (FourCC.readAt b 0 = .dxbc) (.badMagic (FourCC.readAt b 0))
    require (b.word 28 ≤ maxChunkCount) (.tooManyChunks (b.word 28))
    require (32 ≤ b.totalSize) (.totalSizeTooSmall (b.word 24))
    require (b.totalSize ≤ b.size) (.totalSizePastEnd (b.word 24) b.size)
    require (b.tableEnd ≤ b.totalSize) (.tablePastEnd b.tableEnd b.totalSize)
    checkEntries (b.extract 0 b.totalSize) b.tableEnd 0 b.tableOffsets
    return declared b) := by
  have htotalSize : (b.word 24).toNat = b.totalSize := rfl
  have hend : 32 + (b.word 28).toNat * 4 = b.tableEnd := by
    rw [Nat.mul_comm]
    rfl
  rw [parse, show headerSize = 32 from rfl]
  apply require_bind_congr
  intro hsize
  have hchecksum : b.readRange 4 20 = .ok (b.extract 4 20) :=
    Bytes.readRange_eq_ok ⟨by omega, by omega⟩
  have htotal : b.readWord 24 = .ok (b.word 24) :=
    Bytes.readWord_eq_ok (by omega) (by simp [Size.limit])
  have hcount : b.readWord 28 = .ok (b.word 28) :=
    Bytes.readWord_eq_ok (by omega) (by simp [Size.limit])
  rw [FourCC.ofBytes?_eq_some (by omega), demand_some, ok_bind]
  apply require_bind_congr
  intro hmagic
  rw [hchecksum, ok_bind, htotal, ok_bind, hcount, ok_bind, htotalSize, hend]
  apply require_bind_congr
  intro _
  apply require_bind_congr
  intro _
  apply require_bind_congr
  intro hle
  have hbytes : b.readRange 0 b.totalSize = .ok (b.extract 0 b.totalSize) :=
    Bytes.readRange_eq_ok ⟨by omega, hle⟩
  rw [hbytes, ok_bind]
  -- From here on only the declared bytes are read.
  simp only [Bytes.size_extract_zero hle]
  apply require_bind_congr
  intro htable
  rw [readRange_table b htable hle, ok_bind, tableWords_declared b htable hle, hmagic]
  rfl

theorem payloadSizeAt_extract {stop offset : Nat} (h : offset + 8 ≤ stop) :
    Bytes.payloadSizeAt (b.extract 0 stop) offset = b.payloadSizeAt offset := by
  unfold Bytes.payloadSizeAt
  rw [Bytes.word_extract (by omega), Nat.zero_add]

/-- Cutting a byte string at `stop` keeps the chunks that end by then. -/
theorem chunkFits_extract {start stop offset : Nat} (hstop : stop ≤ b.size) :
    ChunkFits (b.extract 0 stop) start (ByteArray.size (b.extract 0 stop)) offset ↔
      ChunkFits b start stop offset := by
  rw [Bytes.size_extract_zero hstop]
  constructor
  · intro h
    have hpayload := h.payload_le
    rw [payloadSizeAt_extract b h.header_le] at hpayload
    exact ⟨h.start_le, h.header_le, hpayload⟩
  · intro h
    have hpayload := h.payload_le
    rw [← payloadSizeAt_extract b h.header_le] at hpayload
    exact ⟨h.start_le, h.header_le, hpayload⟩

theorem forall_mem_tableOffsets {p : Nat → Prop} :
    (∀ offset ∈ b.tableOffsets, p offset.toNat) ↔ ∀ i, i < b.chunkCount → p (b.offsetAt i) := by
  simp [Bytes.tableOffsets, Bytes.offsetAt]

theorem word_le_maxChunkCount : b.word 28 ≤ maxChunkCount ↔ b.chunkCount ≤ 4096 := by
  rw [UInt32.le_iff_toNat_le, show maxChunkCount.toNat = 4096 from rfl, Bytes.chunkCount]

/-- Where the declared size is kept, the table passes exactly when every chunk
lies between the table and that size. -/
theorem checkEntries_declared (htotal : b.totalSize ≤ b.size) :
    checkEntries (b.extract 0 b.totalSize) b.tableEnd 0 b.tableOffsets = .ok () ↔
      ∀ i, i < b.chunkCount → ChunkFits b b.tableEnd b.totalSize (b.offsetAt i) := by
  rw [checkEntries_eq_ok_iff, ← forall_mem_tableOffsets b]
  simp only [chunkFits_extract b htotal]

/-- Reading gives a container exactly on well-formed byte strings, and it gives
the one that they describe. -/
theorem parse_eq_ok_iff {c : Container} :
    parse b = .ok c ↔ WellFormed b ∧ c = declared b := by
  rw [parse_eq]
  simp only [require_bind_eq_ok, word_le_maxChunkCount]
  rw [bind_eq_ok]
  constructor
  · intro h
    obtain ⟨hsize, hmagic, hcount, hheader, htotal, htable, _, hentries, hc⟩ := h
    have hfits := (checkEntries_declared b htotal).1 hentries
    exact ⟨⟨hsize, hmagic, hcount, hheader, htotal, htable, hfits⟩,
      (Except.ok.inj hc).symm⟩
  · intro h
    obtain ⟨hb, rfl⟩ := h
    exact ⟨hb.header_le, hb.magic, hb.chunkCount_le, hb.le_totalSize, hb.totalSize_le,
      hb.tableEnd_le, (), (checkEntries_declared b hb.totalSize_le).2 hb.chunkFits, rfl⟩

variable {b}

theorem WellFormed.parse_eq_ok (hb : WellFormed b) : parse b = .ok (declared b) :=
  (parse_eq_ok_iff b).2 ⟨hb, rfl⟩

theorem wellFormed_of_parse {c : Container} (h : parse b = .ok c) : WellFormed b :=
  ((parse_eq_ok_iff b).1 h).1

theorem eq_declared_of_parse {c : Container} (h : parse b = .ok c) : c = declared b :=
  ((parse_eq_ok_iff b).1 h).2

theorem WellFormed.size_bytes (hb : WellFormed b) :
    (declared b).bytes.size = b.totalSize := by
  rw [declared, Bytes.size_extract_zero hb.totalSize_le]

/-- Reading accepts exactly the well-formed byte strings.  The header of the
container is what the first words say, and its bytes are those that the declared
size covers. -/
theorem parse_accepts_wellFormed (b : Bytes) :
    ((∃ c, parse b = .ok c) ↔ WellFormed b) ∧
      ∀ c, parse b = .ok c →
        c.header = ⟨.dxbc, b.extract 4 20, b.word 24, b.word 28⟩ ∧
          c.bytes = b.extract 0 b.totalSize := by
  constructor
  · constructor
    · intro h
      obtain ⟨c, hc⟩ := h
      exact wellFormed_of_parse hc
    · intro hb
      exact ⟨declared b, hb.parse_eq_ok⟩
  · intro c hc
    rw [eq_declared_of_parse hc]
    exact ⟨rfl, rfl⟩

end Parse

end Container

end ShaderIntake
