import ShaderIntake.Proofs.Container.Chunks

/-!
# Other numbers in the header

The header of a container has two numbers that say how far it goes: the number of chunks and
the declared size.  Writing another number into one of the two fields leaves every chunk where
it is, because chunks start behind the table and the table starts behind the header.

* `withChunkCount`: a smaller number of chunks ends the table earlier and drops the last
  chunks.  The bytes of the dropped entries become a gap.
* `withTotalSize`: any size will do that lies inside the file and behind the table and all
  chunks, whether it is smaller or larger than before.
-/

namespace ShaderIntake

namespace Bytes

/-- The byte string with `k` in the field for the number of chunks. -/
def withChunkCount (b : Bytes) (k : UInt32) : Bytes :=
  b.overwrite 28 (ofWord k)

/-- The byte string with `t` in the field for the size of the whole container. -/
def withTotalSize (b : Bytes) (t : UInt32) : Bytes :=
  b.overwrite 24 (ofWord t)

section Fields

variable {b : Bytes} (hsize : 32 ≤ b.size)

include hsize

/-! ## The field for the number of chunks -/

theorem chunkCount_field_le (k : UInt32) : 28 + (ofWord k).size ≤ b.size := by
  rw [size_ofWord]
  exact hsize

theorem sameFrom_withChunkCount (k : UInt32) : SameFrom 32 b (b.withChunkCount k) :=
  sameFrom_overwrite (chunkCount_field_le hsize k)

theorem chunkCount_withChunkCount (k : UInt32) : (b.withChunkCount k).chunkCount = k.toNat := by
  rw [chunkCount, withChunkCount, word_overwrite_ofWord k hsize]

theorem totalSize_withChunkCount (k : UInt32) : (b.withChunkCount k).totalSize = b.totalSize := by
  rw [totalSize, withChunkCount, word_overwrite_of_lt (chunkCount_field_le hsize k) (by omega),
    totalSize]

theorem offsetAt_withChunkCount (k : UInt32) (i : Nat) :
    (b.withChunkCount k).offsetAt i = b.offsetAt i := by
  rw [offsetAt, (sameFrom_withChunkCount hsize k).word_eq (by omega), offsetAt]

theorem header_withChunkCount (k : UInt32) :
    Container.declaredHeader (b.withChunkCount k) =
      { Container.declaredHeader b with chunkCount := k } := by
  have hfield := chunkCount_field_le hsize k
  simp only [Container.declaredHeader, withChunkCount, word_overwrite_ofWord k hsize,
    word_overwrite_of_lt hfield (show 24 + 4 ≤ 28 by omega),
    extract_overwrite_of_lt hfield (show 20 ≤ 28 by omega)]

/-! ## The field for the declared size -/

theorem totalSize_field_le (t : UInt32) : 24 + (ofWord t).size ≤ b.size := by
  rw [size_ofWord]
  omega

theorem sameFrom_withTotalSize (t : UInt32) : SameFrom 28 b (b.withTotalSize t) :=
  sameFrom_overwrite (totalSize_field_le hsize t)

theorem totalSize_withTotalSize (t : UInt32) : (b.withTotalSize t).totalSize = t.toNat := by
  rw [totalSize, withTotalSize, word_overwrite_ofWord t (by omega)]

theorem chunkCount_withTotalSize (t : UInt32) :
    (b.withTotalSize t).chunkCount = b.chunkCount := by
  rw [chunkCount, (sameFrom_withTotalSize hsize t).word_eq (by omega), chunkCount]

theorem tableEnd_withTotalSize (t : UInt32) : (b.withTotalSize t).tableEnd = b.tableEnd := by
  rw [tableEnd, chunkCount_withTotalSize hsize, tableEnd]

theorem offsetAt_withTotalSize (t : UInt32) (i : Nat) :
    (b.withTotalSize t).offsetAt i = b.offsetAt i := by
  rw [offsetAt, (sameFrom_withTotalSize hsize t).word_eq (by omega), offsetAt]

theorem header_withTotalSize (t : UInt32) :
    Container.declaredHeader (b.withTotalSize t) =
      { Container.declaredHeader b with totalSize := t } := by
  have hfield := totalSize_field_le hsize t
  have hcount := (sameFrom_withTotalSize hsize t).word_eq (Nat.le_refl 28)
  rw [withTotalSize] at hcount
  simp only [Container.declaredHeader, withTotalSize, word_overwrite_ofWord t hfield, hcount,
    extract_overwrite_of_lt hfield (show 20 ≤ 24 by omega)]

end Fields

end Bytes

namespace Container

section Patched

variable {b : Bytes} (hb : WellFormed b)

include hb

/-! ## Fewer chunks -/

section ChunkCount

variable {k : UInt32} (hk : k.toNat ≤ b.chunkCount)

include hk

theorem wellFormed_withChunkCount : WellFormed (b.withChunkCount k) := by
  have hsize := hb.header_le
  have hsame := Bytes.sameFrom_withChunkCount hsize k
  have hcount := Bytes.chunkCount_withChunkCount hsize k
  have htotal := Bytes.totalSize_withChunkCount hsize k
  have hend : (b.withChunkCount k).tableEnd ≤ b.tableEnd := by
    simp only [Bytes.tableEnd, hcount]
    omega
  constructor
  case header_le => exact hsame.size_eq ▸ hsize
  case magic =>
    rw [Bytes.withChunkCount,
      FourCC.readAt_overwrite_of_lt (Bytes.chunkCount_field_le hsize k) (by omega)]
    exact hb.magic
  case chunkCount_le => rw [hcount]; exact Nat.le_trans hk hb.chunkCount_le
  case le_totalSize => rw [htotal]; exact hb.le_totalSize
  case totalSize_le => rw [htotal, hsame.size_eq]; exact hb.totalSize_le
  case tableEnd_le => rw [htotal]; exact Nat.le_trans hend hb.tableEnd_le
  case chunkFits =>
    intro i hi
    rw [hcount] at hi
    have hfits := hb.chunkFits i (by omega)
    rw [htotal, Bytes.offsetAt_withChunkCount hsize,
      hsame.chunkFits_iff (hb.le_offsetAt (by omega))]
    exact ⟨Nat.le_trans hend hfits.start_le, hfits.header_le, hfits.payload_le⟩

/-- The first chunks are left, and they are the ones that they were. -/
theorem chunks_withChunkCount :
    (declared (b.withChunkCount k)).chunks = (declared b).chunks.take k.toNat := by
  have hsize := hb.header_le
  rw [(wellFormed_withChunkCount hb hk).chunks_declared, hb.chunks_declared, Bytes.tableChunks,
    Bytes.chunkCount_withChunkCount hsize, Bytes.tableChunks, ← List.map_take, List.take_range,
    Nat.min_eq_left hk]
  apply List.map_congr_left
  intro i hi
  rw [List.mem_range] at hi
  rw [Bytes.offsetAt_withChunkCount hsize,
    (Bytes.sameFrom_withChunkCount hsize k).chunkAt_eq (hb.le_offsetAt (by omega))]

end ChunkCount

/-! ## Another size -/

section TotalSize

variable (t : UInt32)

/-- The chunks end where they ended, so a size will do if it lies inside the file and behind
all of them. -/
theorem wellFormed_withTotalSize_iff :
    WellFormed (b.withTotalSize t) ↔
      t.toNat ≤ b.size ∧ b.tableEnd ≤ t.toNat ∧
        ∀ i, i < b.chunkCount →
          b.offsetAt i + 8 + b.payloadSizeAt (b.offsetAt i) ≤ t.toNat := by
  have hsize := hb.header_le
  have hsame := Bytes.sameFrom_withTotalSize hsize t
  have hcount := Bytes.chunkCount_withTotalSize hsize t
  have htotal := Bytes.totalSize_withTotalSize hsize t
  have hend := Bytes.tableEnd_withTotalSize hsize t
  have hpayload : ∀ i, i < b.chunkCount →
      (b.withTotalSize t).payloadSizeAt (b.offsetAt i) = b.payloadSizeAt (b.offsetAt i) := by
    intro i hi
    have hoffset := hb.le_offsetAt hi
    exact hsame.payloadSizeAt_eq (by omega)
  constructor
  · intro h
    have hle := h.totalSize_le
    have htable := h.tableEnd_le
    rw [htotal, hsame.size_eq] at hle
    rw [htotal, hend] at htable
    refine ⟨hle, htable, ?_⟩
    intro i hi
    have hfits := (h.chunkFits i (by rwa [hcount])).payload_le
    rwa [htotal, Bytes.offsetAt_withTotalSize hsize, hpayload i hi] at hfits
  · rintro ⟨hle, htable, hstop⟩
    constructor
    case header_le => exact hsame.size_eq ▸ hsize
    case magic =>
      rw [Bytes.withTotalSize,
        FourCC.readAt_overwrite_of_lt (Bytes.totalSize_field_le hsize t) (by omega)]
      exact hb.magic
    case chunkCount_le => rw [hcount]; exact hb.chunkCount_le
    case le_totalSize =>
      unfold Bytes.tableEnd at htable
      omega
    case totalSize_le => rwa [htotal, hsame.size_eq]
    case tableEnd_le => rwa [hend, htotal]
    case chunkFits =>
      intro i hi
      rw [hcount] at hi
      have hinside := hstop i hi
      rw [hend, htotal, Bytes.offsetAt_withTotalSize hsize]
      refine ⟨(hb.chunkFits i hi).start_le, by omega, ?_⟩
      rw [hpayload i hi]
      exact hinside

/-- No chunk depends on the declared size. -/
theorem chunks_withTotalSize (h : WellFormed (b.withTotalSize t)) :
    (declared (b.withTotalSize t)).chunks = (declared b).chunks := by
  have hsize := hb.header_le
  rw [h.chunks_declared, hb.chunks_declared]
  apply (Bytes.sameFrom_withTotalSize hsize t).tableChunks_eq
    (Bytes.chunkCount_withTotalSize hsize t)
  intro i hi
  have hstart := hb.le_offsetAt hi
  exact ⟨Bytes.offsetAt_withTotalSize hsize t i, by omega⟩

end TotalSize

end Patched

/-- The two numbers in the header of a container can be changed as far as the chunks allow.
With any smaller number of chunks it is a container with that many of its first chunks.  With
another size it is a container exactly if the size lies inside the file, behind the table and
behind every chunk, and then with the same chunks and with the bytes up to that size.  Nothing
else in the header changes. -/
theorem header_numbers_can_be_changed {b : Bytes} {c : Container} (h : parse b = .ok c) :
    (∀ k : UInt32, k.toNat ≤ c.header.chunkCount.toNat →
      ∃ c', parse (b.withChunkCount k) = .ok c' ∧
        c'.header = { c.header with chunkCount := k } ∧ c'.chunks = c.chunks.take k.toNat) ∧
      ∀ t : UInt32,
        ((∃ c', parse (b.withTotalSize t) = .ok c') ↔
          t.toNat ≤ b.size ∧ 32 + 4 * b.chunkCount ≤ t.toNat ∧
            ∀ i, i < b.chunkCount →
              b.offsetAt i + 8 + b.payloadSizeAt (b.offsetAt i) ≤ t.toNat) ∧
          ∀ c', parse (b.withTotalSize t) = .ok c' →
            c'.header = { c.header with totalSize := t } ∧ c'.chunks = c.chunks ∧
              c'.bytes = (b.withTotalSize t).extract 0 t.toNat := by
  have hb := wellFormed_of_parse h
  have hsize := hb.header_le
  obtain rfl := eq_declared_of_parse h
  constructor
  · intro k hk
    exact ⟨_, (wellFormed_withChunkCount hb hk).parse_eq_ok, Bytes.header_withChunkCount hsize k,
      chunks_withChunkCount hb hk⟩
  · intro t
    constructor
    · show _ ↔ t.toNat ≤ b.size ∧ b.tableEnd ≤ t.toNat ∧ _
      rw [← wellFormed_withTotalSize_iff hb]
      exact ⟨fun ⟨_, hc'⟩ => wellFormed_of_parse hc', fun h' => ⟨_, h'.parse_eq_ok⟩⟩
    · intro c' hc'
      have hb' := wellFormed_of_parse hc'
      obtain rfl := eq_declared_of_parse hc'
      refine ⟨Bytes.header_withTotalSize hsize t, chunks_withTotalSize hb t hb', ?_⟩
      show (b.withTotalSize t).extract 0 (b.withTotalSize t).totalSize = _
      rw [Bytes.totalSize_withTotalSize hsize]

/-- The last chunk of `nestedChunks` ends with the file. -/
theorem header_numbers_can_be_changed_nested :
    parse nestedChunks = .ok (declared nestedChunks) ∧
      (∃ c', parse (nestedChunks.withChunkCount 1) = .ok c' ∧
        c'.chunks = (declared nestedChunks).chunks.take 1) ∧
      ¬∃ c', parse (nestedChunks.withTotalSize 59) = .ok c' := by
  have hparse := nestedChunks_wellFormed.parse_eq_ok
  have hchanged := header_numbers_can_be_changed hparse
  refine ⟨hparse, ?_, ?_⟩
  · obtain ⟨c', hc', -, hchunks⟩ := hchanged.1 1 (by decide)
    exact ⟨c', hc', hchunks⟩
  · rw [(hchanged.2 59).1]
    intro h
    exact absurd (h.2.2 1 (by decide)) (by decide)

end Container

end ShaderIntake
