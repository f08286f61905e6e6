import ShaderIntake.Proofs.Container.Chunks

/-!
# What reading a container does not look at

Between the code and the sizes, at positions 4 to 23, a container holds its checksum and
a word that nothing reads.  `SameReadBytes` says that two byte strings are the same
everywhere else.  Such byte strings pass the checks of the reader together, and where
they fail they fail with the same error (`SameReadBytes.parse_eq_error`), because
every chunk lies behind the table.
-/

namespace ShaderIntake

namespace Container

/-! ## The table -/

section Entries

variable {bytes bytes' : Bytes} {start : Nat} (h : Bytes.SameFrom start bytes bytes')

include h

/-- A chunk is located by its own header. -/
theorem locate_congr {index offset : Nat} (hstart : start ≤ offset)
    (hoffset : offset < UInt32.size) :
    ChunkExtent.locate bytes' index offset = ChunkExtent.locate bytes index offset := by
  rw [ChunkExtent.locate_eq _ _ _ hoffset, ChunkExtent.locate_eq _ _ _ hoffset, h.size_eq,
    h.readAt_eq hstart, h.payloadSizeAt_eq hstart]

theorem checkEntry_congr (index : Nat) (offset : UInt32) :
    checkEntry bytes' start index offset = checkEntry bytes start index offset := by
  unfold checkEntry
  apply require_bind_congr
  intro hstart
  rw [locate_congr h hstart offset.toNat_lt]

/-- The entries are checked on what lies from `start` on. -/
theorem checkEntries_congr (index : Nat) (offsets : List UInt32) :
    checkEntries bytes' start index offsets = checkEntries bytes start index offsets := by
  induction offsets generalizing index with
  | nil => rfl
  | cons offset rest ih => rw [checkEntries, checkEntry_congr h, ih, checkEntries]

end Entries

/-! ## The whole container -/

/-- The checks of the reader, in order. -/
def check (b : Bytes) : Except FormatError Unit := do
  require (32 ≤ b.size) (.headerTruncated b.size)
  require (FourCC.readAt b 0 = .dxbc) (.badMagic (FourCC.readAt b 0))
  require (b.word 28 ≤ maxChunkCount) (.tooManyChunks (b.word 28))
  require (32 ≤ b.totalSize) (.totalSizeTooSmall (b.word 24))
  require (b.totalSize ≤ b.size) (.totalSizePastEnd (b.word 24) b.size)
  require (b.tableEnd ≤ b.totalSize) (.tablePastEnd b.tableEnd b.totalSize)
  checkEntries (b.extract 0 b.totalSize) b.tableEnd 0 b.tableOffsets

/-- Reading is checking, and then taking what the words say. -/
theorem parse_eq_check (b : Bytes) : parse b = (check b >>= fun _ => .ok (declared b)) := by
  rw [parse_eq, check]
  simp only [bind_assoc]
  rfl

/-- The two byte strings are the same but for the checksum and the word behind it. -/
structure SameReadBytes (b b' : Bytes) : Prop where
  size_eq : b'.size = b.size
  byteAt_eq : ∀ p, p < 4 ∨ 24 ≤ p → b'.byteAt p = b.byteAt p

namespace SameReadBytes

variable {b b' : Bytes} (h : SameReadBytes b b')

include h

theorem sameFrom : Bytes.SameFrom 24 b b' :=
  ⟨h.size_eq, fun p hp => h.byteAt_eq p (.inr hp)⟩

theorem word_eq {p : Nat} (hp : 24 ≤ p) : b'.word p = b.word p :=
  h.sameFrom.word_eq hp

theorem readAt_eq : FourCC.readAt b' 0 = FourCC.readAt b 0 := by
  apply FourCC.readAt_congr
  intro i hi
  exact h.byteAt_eq _ (.inl (by omega))

theorem totalSize_eq : b'.totalSize = b.totalSize := by
  rw [Bytes.totalSize, h.word_eq (by omega), Bytes.totalSize]

theorem tableEnd_eq : b'.tableEnd = b.tableEnd := by
  rw [Bytes.tableEnd, Bytes.chunkCount, h.word_eq (by omega), Bytes.tableEnd, Bytes.chunkCount]

theorem tableOffsets_eq : b'.tableOffsets = b.tableOffsets := by
  rw [Bytes.tableOffsets, Bytes.chunkCount, h.word_eq (by omega), Bytes.tableOffsets,
    Bytes.chunkCount]
  apply List.map_congr_left
  intro i _
  exact h.word_eq (by omega)

/-- The table lies behind the bytes that may differ, and the chunks behind the table. -/
theorem checkEntries_eq :
    checkEntries (b'.extract 0 b.totalSize) b.tableEnd 0 b.tableOffsets =
      checkEntries (b.extract 0 b.totalSize) b.tableEnd 0 b.tableOffsets := by
  have hend : b.tableEnd = 32 + 4 * b.chunkCount := rfl
  exact checkEntries_congr ((h.sameFrom.mono (by omega)).extract_zero b.totalSize) 0 b.tableOffsets

theorem check_eq : check b' = check b := by
  rw [check, h.size_eq, h.readAt_eq, h.word_eq (by omega), h.word_eq (by omega), h.totalSize_eq,
    h.tableEnd_eq, h.tableOffsets_eq, h.checkEntries_eq, check]

theorem parse_eq_error {e : FormatError} (he : parse b = .error e) : parse b' = .error e := by
  rw [parse_eq_check, bind_ok_eq_error] at he
  rw [parse_eq_check, h.check_eq, he, error_bind]

end SameReadBytes

end Container

end ShaderIntake
