import Mathlib.Data.List.Find
import Mathlib.Data.List.FinRange
import ShaderIntake.Proofs.Container.RoundTrip

/-!
# The order of the table

A table may list its chunks in any order, and an entry is checked without regard to its place.
So with the entries in another order a container stays one, and its chunks are listed in that
order (`Reordered.wellFormed`, `Reordered.getElem?_chunks`).

`reorderTable` writes the entries in the order of a permutation.  `Reordered` says of two byte
strings that the second is such a reordering of the first; everything else goes through it.
-/

namespace ShaderIntake

namespace Bytes

/-- The byte string with its table in another order: entry `i` is what entry `σ i` was. -/
def reorderTable (b : Bytes) (σ : Equiv.Perm (Fin b.chunkCount)) : Bytes :=
  b.overwrite 32 (Container.tableBytes (List.ofFn fun i => b.word (32 + 4 * σ i)))

end Bytes

namespace Container

/-- `b'` is `b` with entry `σ i` of the table in place of entry `i`. -/
structure Reordered (b b' : Bytes) (σ : Equiv.Perm (Fin b.chunkCount)) : Prop where
  size_eq : b'.size = b.size
  byteAt_eq : ∀ p, p < 32 ∨ b.tableEnd ≤ p → b'.byteAt p = b.byteAt p
  offset_eq : ∀ i, b'.word (32 + 4 * i.val) = b.word (32 + 4 * σ i)

/-! ## Writing the entries -/

/-- A table that was written is read back. -/
theorem word_overwrite_tableBytes {b : Bytes} {offsets : List UInt32} {i : Nat}
    (hsize : 32 ≤ b.size) (hi : i < offsets.length) :
    (b.overwrite 32 (tableBytes offsets)).word (32 + 4 * i) = offsets[i] := by
  have hfront : ByteArray.size (b.extract 0 32) = 32 := Bytes.size_extract_zero hsize
  have hsplit : b.overwrite 32 (tableBytes offsets) = b.extract 0 32 ++ (tableBytes offsets
      ++ b.extract (32 + (tableBytes offsets).size) b.size) := ByteArray.append_assoc ..
  have hwords := map_word_tableBytes hsplit
  rw [hfront] at hwords
  have hword := congrArg (fun words => words[i]?) hwords
  simpa [hi] using hword

theorem reordered_reorderTable {b : Bytes} (hsize : b.tableEnd ≤ b.size)
    (σ : Equiv.Perm (Fin b.chunkCount)) : Reordered b (b.reorderTable σ) σ := by
  have hend : b.tableEnd = 32 + 4 * b.chunkCount := rfl
  have htable : 32 + (tableBytes (List.ofFn fun i => b.word (32 + 4 * σ i))).size = b.tableEnd := by
    rw [size_tableBytes, List.length_ofFn, hend]
  have hfield : 32 + (tableBytes (List.ofFn fun i => b.word (32 + 4 * σ i))).size ≤ b.size := by
    omega
  rw [Bytes.reorderTable]
  constructor
  case size_eq => exact Bytes.size_overwrite hfield
  case byteAt_eq =>
    rintro p (hp | hp)
    · exact Bytes.byteAt_overwrite_of_lt hfield hp
    · exact Bytes.byteAt_overwrite_of_le hfield (by omega)
  case offset_eq =>
    intro i
    rw [word_overwrite_tableBytes (by omega) (by simp), List.getElem_ofFn]

/-! ## Containers with a reordered table -/

namespace Reordered

variable {b b' : Bytes} {σ : Equiv.Perm (Fin b.chunkCount)} (h : Reordered b b' σ)

include h

theorem sameFrom : Bytes.SameFrom b.tableEnd b b' :=
  ⟨h.size_eq, fun p hp => h.byteAt_eq p (.inr hp)⟩

theorem word_eq {p : Nat} (hp : p + 4 ≤ 32) : b'.word p = b.word p := by
  apply Bytes.word_congr
  intro i hi
  exact h.byteAt_eq _ (.inl (by omega))

theorem header_eq : declaredHeader b' = declaredHeader b := by
  have hchecksum : b'.extract 4 20 = b.extract 4 20 := by
    apply Bytes.extract_congr
    · rw [h.size_eq]
    · intro p _ hp
      exact h.byteAt_eq p (.inl (by omega))
  rw [declaredHeader, hchecksum, h.word_eq (by omega), h.word_eq (by omega), declaredHeader]

theorem totalSize_eq : b'.totalSize = b.totalSize :=
  congrArg (fun header => header.totalSize.toNat) h.header_eq

theorem chunkCount_eq : b'.chunkCount = b.chunkCount :=
  congrArg (fun header => header.chunkCount.toNat) h.header_eq

theorem offsetAt_eq (i : Fin b.chunkCount) : b'.offsetAt i = b.offsetAt (σ i) := by
  rw [Bytes.offsetAt, h.offset_eq, Bytes.offsetAt]

/-- Every entry is one of the old entries, and those were checked. -/
theorem wellFormed (hb : WellFormed b) : WellFormed b' := by
  have hmagic : FourCC.readAt b' 0 = FourCC.readAt b 0 := by
    apply FourCC.readAt_congr
    intro i hi
    exact h.byteAt_eq _ (.inl (by omega))
  apply hb.of_header_eq h.size_eq hmagic h.totalSize_eq h.chunkCount_eq
  intro i hi
  have hfits := hb.chunkFits (σ ⟨i, hi⟩) (σ ⟨i, hi⟩).isLt
  rw [h.offsetAt_eq ⟨i, hi⟩, h.sameFrom.chunkFits_iff hfits.start_le]
  exact hfits

/-- The chunks are listed in the order of the table. -/
theorem chunks_eq_ofFn (hb : WellFormed b) :
    (declared b').chunks =
      List.ofFn ((fun i : Fin b.chunkCount => b.chunkAt (b.offsetAt i)) ∘ σ) := by
  rw [(h.wellFormed hb).chunks_declared, Bytes.tableChunks_eq_ofFn h.chunkCount_eq, List.ofFn_inj]
  funext i
  rw [Function.comp_apply, h.offsetAt_eq i,
    h.sameFrom.chunkAt_eq (hb.chunkFits (σ i) (σ i).isLt).start_le]

theorem getElem?_chunks (hb : WellFormed b) (i : Fin b.chunkCount) :
    (declared b').chunks[i.val]? = (declared b).chunks[(σ i).val]? := by
  rw [h.chunks_eq_ofFn hb, hb.chunks_declared, Bytes.tableChunks_eq_ofFn rfl]
  simp

theorem chunks_perm (hb : WellFormed b) : (declared b').chunks.Perm (declared b).chunks := by
  rw [h.chunks_eq_ofFn hb, hb.chunks_declared, Bytes.tableChunks_eq_ofFn rfl]
  exact σ.ofFn_comp_perm _

end Reordered

/-! ## Searches in any order -/

section Search

variable {c c' : Container} (hperm : c'.chunks.Perm c.chunks)

include hperm

/-- Where at most one chunk is looked for, the order does not matter. -/
theorem firstWhere_of_perm {p : FourCC → Bool}
    (hunique : ∀ x ∈ c.chunks, ∀ y ∈ c.chunks, p x.fourcc = true → p y.fourcc = true → x = y) :
    c'.firstWhere p = c.firstWhere p := by
  rw [firstWhere_eq_find?, firstWhere_eq_find?]
  apply (List.find?_eq_find?_of_perm hperm.symm ?_).symm
  rintro x ⟨hx, hpx⟩ y ⟨hy, hpy⟩
  exact hunique x hx y hy hpx hpy

section Distinct

variable (hdistinct : (c.chunks.map Chunk.fourcc).Nodup)

include hdistinct

theorem chunk?_of_perm (f : FourCC) : c'.chunk? f = c.chunk? f := by
  apply firstWhere_of_perm hperm
  intro x hx y hy hpx hpy
  rw [decide_eq_true_eq] at hpx hpy
  exact List.inj_on_of_nodup_map hdistinct hx hy (hpx.trans hpy.symm)

theorem programPart?_of_perm : c'.programPart? = c.programPart? := by
  rw [programPart?, chunk?_of_perm hperm hdistinct, chunk?_of_perm hperm hdistinct, programPart?]

/-- With one model of token streams at most, there is one token stream at most. -/
theorem tokenStream?_of_perm
    (hmodel : ¬((∃ x ∈ c.chunks, x.fourcc = .shdr) ∧ ∃ x ∈ c.chunks, x.fourcc = .shex)) :
    c'.tokenStream? = c.tokenStream? := by
  apply firstWhere_of_perm hperm
  intro x hx y hy hpx hpy
  apply List.inj_on_of_nodup_map hdistinct hx hy
  rw [isTokenStream_iff] at hpx hpy
  rcases hpx with hpx | hpx <;> rcases hpy with hpy | hpy
  · rw [hpx, hpy]
  · exact absurd ⟨⟨y, hy, hpy⟩, x, hx, hpx⟩ hmodel
  · exact absurd ⟨⟨x, hx, hpx⟩, y, hy, hpy⟩ hmodel
  · rw [hpx, hpy]

end Distinct

end Search

end Container

end ShaderIntake
