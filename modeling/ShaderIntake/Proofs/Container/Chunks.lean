import ShaderIntake.Proofs.Container.Grammar

/-!
# The chunks of a container

A container finds its chunks again from its bytes and its table, and passes over
an entry that points to no chunk.  Reading has checked every entry, so none is
passed over.

* `extents_declared` and `chunks_declared`: the chunks are those that the table
  lists, one for each entry and in its order.
* `map_chunks`: codes and sizes of the chunks are the ones that their headers say.
* `chunkAt_extract`: cutting a byte string behind a chunk keeps the chunk, so the
  chunks are the same in the bytes of the container and in the byte string that it
  was read from.
* `SameFrom.chunkAt_eq`: nothing in front of a chunk matters to it.
* `firstWhere_eq_some_iff` and `firstWhere_eq_none_iff` say what a search through
  the chunks finds, with `IsFirst` for the first one with a property.
-/

namespace ShaderIntake

namespace Bytes

/-- Where the payload of the chunk that starts at `offset` lies. -/
def extentAt (b : Bytes) (offset : Nat) : ChunkExtent :=
  ⟨FourCC.readAt b offset, offset + 8, b.payloadSizeAt offset⟩

/-- The chunks that the offset table lists. -/
def tableChunks (b : Bytes) : List Chunk :=
  (List.range b.chunkCount).map fun i => b.chunkAt (b.offsetAt i)

/-- A table of `n` entries lists `n` chunks. -/
theorem tableChunks_eq_ofFn {b : Bytes} {n : Nat} (hn : b.chunkCount = n) :
    b.tableChunks = List.ofFn fun i : Fin n => b.chunkAt (b.offsetAt i) := by
  subst hn
  apply List.ext_getElem
  · simp [tableChunks]
  · intro i _ _
    simp [tableChunks]

theorem getElem?_tableChunks {b : Bytes} {i : Nat} (hi : i < b.chunkCount) :
    b.tableChunks[i]? = some (b.chunkAt (b.offsetAt i)) := by
  rw [tableChunks, List.getElem?_map, List.getElem?_range hi, Option.map_some]

namespace SameFrom

/-! ## Chunks behind a position -/

variable {start : Nat} {b b' : Bytes} (h : SameFrom start b b') {offset : Nat}
  (hoffset : start ≤ offset)

include h hoffset

theorem payloadSizeAt_eq : b'.payloadSizeAt offset = b.payloadSizeAt offset := by
  rw [payloadSizeAt, h.word_eq (by omega), payloadSizeAt]

theorem extentAt_eq : b'.extentAt offset = b.extentAt offset := by
  rw [extentAt, h.readAt_eq hoffset, h.payloadSizeAt_eq hoffset, extentAt]

theorem chunkAt_eq : b'.chunkAt offset = b.chunkAt offset := by
  rw [chunkAt, h.readAt_eq hoffset, h.payloadSizeAt_eq hoffset, h.extract_eq (by omega), chunkAt]

theorem chunkFits_iff {tableEnd stop : Nat} :
    Container.ChunkFits b' tableEnd stop offset ↔ Container.ChunkFits b tableEnd stop offset := by
  have hsize := h.payloadSizeAt_eq hoffset
  constructor
  · rintro ⟨hstart, hheader, hpayload⟩
    exact ⟨hstart, hheader, hsize ▸ hpayload⟩
  · rintro ⟨hstart, hheader, hpayload⟩
    exact ⟨hstart, hheader, hsize.symm ▸ hpayload⟩

end SameFrom

/-- The table lists the same chunks if it has the same offsets and they lie behind `start`. -/
theorem SameFrom.tableChunks_eq {start : Nat} {b b' : Bytes} (h : SameFrom start b b')
    (hcount : b'.chunkCount = b.chunkCount)
    (hoffset : ∀ i, i < b.chunkCount → b'.offsetAt i = b.offsetAt i ∧ start ≤ b.offsetAt i) :
    b'.tableChunks = b.tableChunks := by
  rw [tableChunks, hcount, tableChunks]
  apply List.map_congr_left
  intro i hi
  rcases hoffset i (List.mem_range.1 hi) with ⟨hsame, hstart⟩
  rw [hsame, h.chunkAt_eq hstart]

end Bytes

/-- `x` is in `xs`, has the property `p`, and no element before it has. -/
def IsFirst {α : Type} (p : α → Prop) (xs : List α) (x : α) : Prop :=
  ∃ before after, xs = before ++ x :: after ∧ p x ∧ ∀ y ∈ before, ¬p y

/-- The chunk that holds the program: the first `DXIL` chunk, or the first `ILDB`
chunk if there is no `DXIL` chunk at all. -/
def IsProgramPart (xs : List Chunk) (x : Chunk) : Prop :=
  IsFirst (fun y => y.fourcc = .dxil) xs x ∨
    (∀ y ∈ xs, y.fourcc ≠ .dxil) ∧ IsFirst (fun y => y.fourcc = .ildb) xs x

/-- The first chunk that is a token stream older than DXIL, of either model. -/
def IsTokenStream (xs : List Chunk) (x : Chunk) : Prop :=
  IsFirst (fun y => y.fourcc = .shex ∨ y.fourcc = .shdr) xs x

/-- Where `f` is defined on every element, filtering with it drops none. -/
theorem filterMap_map_eq_map {α β γ : Type} {f : β → Option γ} {g : α → β} {h : α → γ}
    {xs : List α} (hsome : ∀ x ∈ xs, f (g x) = some (h x)) :
    (xs.map g).filterMap f = xs.map h := by
  induction xs with
  | nil => rfl
  | cons x xs ih =>
    rw [List.forall_mem_cons] at hsome
    rw [List.map_cons, List.filterMap_cons, hsome.1, List.map_cons, ih hsome.2]

namespace Container

section Cut

variable {b : Bytes} {start stop offset : Nat}

/-! ## Cutting behind a chunk -/

theorem extentAt_extract (h : offset + 8 ≤ stop) :
    Bytes.extentAt (b.extract 0 stop) offset = b.extentAt offset := by
  unfold Bytes.extentAt
  rw [payloadSizeAt_extract b h, FourCC.readAt_extract (by omega), Nat.zero_add]

theorem chunkAt_extract (h : ChunkFits b start stop offset) :
    Bytes.chunkAt (b.extract 0 stop) offset = b.chunkAt offset := by
  have hpayload := h.payload_le
  unfold Bytes.chunkAt
  rw [payloadSizeAt_extract b h.header_le, FourCC.readAt_extract (by omega),
    Bytes.extract_extract_of_le (by omega)]
  simp only [Nat.zero_add]

theorem offsetAt_extract {i : Nat} (h : 32 + 4 * i + 4 ≤ stop) :
    Bytes.offsetAt (b.extract 0 stop) i = b.offsetAt i := by
  unfold Bytes.offsetAt
  rw [Bytes.word_extract (by omega), Nat.zero_add]

end Cut

/-! ## Located payloads -/

/-- A payload lies inside the bytes, so it has the size that its header says. -/
theorem size_read_of_mem_extents {c : Container} {x : ChunkExtent} (h : x ∈ c.extents) :
    (x.read c.bytes).data.size = x.size := by
  obtain ⟨offset, -, hoption⟩ := List.mem_filterMap.1 h
  have hlocate : ChunkExtent.locate c.bytes 0 offset.toNat = .ok x := by
    cases hresult : ChunkExtent.locate c.bytes 0 offset.toNat with
    | error e =>
      rw [hresult] at hoption
      cases hoption
    | ok y =>
      rw [hresult] at hoption
      rw [Option.some.inj hoption]
  simp only [ChunkExtent.locate, demand_bind_eq_ok, require_bind_eq_ok] at hlocate
  obtain ⟨start, -, head, -, stop, hstop, hrange, hx⟩ := hlocate
  obtain rfl := Size.eq_of_add?_eq_some hstop
  obtain rfl := Except.ok.inj hx
  have hinside := hrange.2
  rw [ChunkExtent.read, Bytes.size_extract_of_le hinside]
  exact Nat.add_sub_cancel_left start _

/-- What depends on the code and the size of a chunk can be taken from its header. -/
theorem map_chunks (c : Container) {α : Type} (f : FourCC → Nat → α) :
    (c.chunks.map fun x => f x.fourcc x.data.size) = c.extents.map fun x => f x.fourcc x.size := by
  rw [chunks, List.map_map]
  apply List.map_congr_left
  intro x hx
  rw [Function.comp_apply, size_read_of_mem_extents hx]
  rfl

/-! ## No entry is passed over -/

section Declared

variable {b : Bytes}

/-- Chunks start behind the header, whatever the table looks like. -/
theorem WellFormed.le_offsetAt (hb : WellFormed b) {i : Nat} (hi : i < b.chunkCount) :
    32 ≤ b.offsetAt i := by
  have hstart := (hb.chunkFits i hi).start_le
  unfold Bytes.tableEnd at hstart
  omega

/-- Every entry of the table locates its chunk in the bytes of the container. -/
theorem WellFormed.locate_eq_ok (hb : WellFormed b) {i : Nat} (hi : i < b.chunkCount)
    (index : Nat) :
    ChunkExtent.locate (declared b).bytes index (b.offsetAt i) =
      .ok (b.extentAt (b.offsetAt i)) := by
  have hfits := hb.chunkFits i hi
  have hoffset : b.offsetAt i < UInt32.size := (b.word (32 + 4 * i)).toNat_lt
  have hpayload : b.offsetAt i + 8 + Bytes.payloadSizeAt (declared b).bytes (b.offsetAt i) ≤
      (declared b).bytes.size := by
    rw [hb.size_bytes, declared, payloadSizeAt_extract b hfits.header_le]
    exact hfits.payload_le
  rw [ChunkExtent.locate_eq_ok _ index _ hoffset hpayload, ← extentAt_extract hfits.header_le]
  rfl

/-- The chunks are located where the table says, none is passed over. -/
theorem WellFormed.extents_declared (hb : WellFormed b) :
    (declared b).extents =
      (List.range b.chunkCount).map fun i => b.extentAt (b.offsetAt i) := by
  rw [extents, show (declared b).offsets = b.tableOffsets from rfl, Bytes.tableOffsets]
  apply filterMap_map_eq_map
  intro i hi
  have hlocate := hb.locate_eq_ok (List.mem_range.1 hi) 0
  rw [Bytes.offsetAt] at hlocate
  rw [hlocate]
  rfl

theorem WellFormed.chunks_declared (hb : WellFormed b) :
    (declared b).chunks = b.tableChunks := by
  rw [chunks, hb.extents_declared, List.map_map, Bytes.tableChunks]
  apply List.map_congr_left
  intro i hi
  have hfits := hb.chunkFits i (List.mem_range.1 hi)
  have hpayload := hfits.payload_le
  simp only [Function.comp_apply, ChunkExtent.read, Bytes.extentAt, Bytes.chunkAt, declared]
  rw [Bytes.extract_extract_of_le (by omega), Nat.zero_add, Nat.zero_add]

theorem WellFormed.tableEnd_bytes (hb : WellFormed b) :
    (declared b).bytes.tableEnd = b.tableEnd := by
  have hheader := hb.le_totalSize
  rw [declared, Bytes.tableEnd, Bytes.chunkCount, Bytes.word_extract (by omega)]
  rfl

theorem WellFormed.offsetAt_bytes (hb : WellFormed b) {i : Nat} (hi : i < b.chunkCount) :
    (declared b).bytes.offsetAt i = b.offsetAt i := by
  have htable := hb.tableEnd_le
  have hend : b.tableEnd = 32 + 4 * b.chunkCount := rfl
  exact offsetAt_extract (by omega)

theorem WellFormed.chunkFits_bytes (hb : WellFormed b) {i : Nat} (hi : i < b.chunkCount) :
    ChunkFits (declared b).bytes (declared b).bytes.tableEnd (declared b).bytes.size
      ((declared b).bytes.offsetAt i) := by
  rw [hb.tableEnd_bytes, hb.offsetAt_bytes hi]
  exact (chunkFits_extract b hb.totalSize_le).2 (hb.chunkFits i hi)

theorem WellFormed.length_chunks (hb : WellFormed b) :
    (declared b).chunks.length = b.chunkCount := by
  rw [hb.chunks_declared, Bytes.tableChunks, List.length_map, List.length_range]

/-- Chunk `i` is the one that entry `i` points to. -/
theorem WellFormed.getElem?_chunks (hb : WellFormed b) {i : Nat} (hi : i < b.chunkCount) :
    (declared b).chunks[i]? =
      some ((declared b).bytes.chunkAt ((declared b).bytes.offsetAt i)) := by
  have hchunk : (declared b).bytes.chunkAt (b.offsetAt i) = b.chunkAt (b.offsetAt i) :=
    chunkAt_extract (hb.chunkFits i hi)
  rw [hb.offsetAt_bytes hi, hchunk, hb.chunks_declared, Bytes.getElem?_tableChunks hi]

end Declared

/-! ## Searches -/

section Search

variable (c : Container) {x : Chunk}

/-- A search finds the first chunk whose code has the property. -/
theorem firstWhere_eq_some_iff {p : FourCC → Bool} :
    c.firstWhere p = some x ↔ IsFirst (fun y => p y.fourcc = true) c.chunks x := by
  rw [firstWhere_eq_find?, List.find?_eq_some_iff_append]
  constructor
  · intro h
    obtain ⟨hx, before, after, hsplit, hbefore⟩ := h
    exact ⟨before, after, hsplit, hx, fun y hy => by simpa using hbefore y hy⟩
  · intro h
    obtain ⟨before, after, hsplit, hx, hbefore⟩ := h
    exact ⟨hx, before, after, hsplit, fun y hy => by simpa using hbefore y hy⟩

theorem firstWhere_eq_none_iff {p : FourCC → Bool} :
    c.firstWhere p = none ↔ ∀ y ∈ c.chunks, ¬p y.fourcc = true := by
  rw [firstWhere_eq_find?, List.find?_eq_none]

theorem chunk?_eq_some_iff {f : FourCC} :
    c.chunk? f = some x ↔ IsFirst (fun y => y.fourcc = f) c.chunks x := by
  rw [chunk?, firstWhere_eq_some_iff]
  simp only [decide_eq_true_eq]

theorem chunk?_eq_none_iff {f : FourCC} :
    c.chunk? f = none ↔ ∀ y ∈ c.chunks, y.fourcc ≠ f := by
  rw [chunk?, firstWhere_eq_none_iff]
  simp only [decide_eq_true_eq, ne_eq]

theorem chunk?_eq_head? (f : FourCC) : c.chunk? f = (c.chunksNamed f).head? := by
  rw [chunksNamed_eq_filter, List.head?_filter, chunk?, firstWhere_eq_find?]

theorem programPart?_eq_some_iff :
    c.programPart? = some x ↔ IsProgramPart c.chunks x := by
  rw [programPart?, Option.or_eq_some_iff, chunk?_eq_some_iff, chunk?_eq_none_iff,
    chunk?_eq_some_iff, IsProgramPart]

theorem programPart?_eq_none_iff :
    c.programPart? = none ↔ ∀ y ∈ c.chunks, y.fourcc ≠ .dxil ∧ y.fourcc ≠ .ildb := by
  rw [programPart?, Option.or_eq_none_iff, chunk?_eq_none_iff, chunk?_eq_none_iff]
  constructor
  · intro h y hy
    exact ⟨h.1 y hy, h.2 y hy⟩
  · intro h
    exact ⟨fun y hy => (h y hy).1, fun y hy => (h y hy).2⟩

theorem isTokenStream_iff (f : FourCC) :
    f.isTokenStream = true ↔ f = .shex ∨ f = .shdr := by
  rw [FourCC.isTokenStream, decide_eq_true_eq]
  exact Or.comm

theorem tokenStream?_eq_some_iff :
    c.tokenStream? = some x ↔ IsTokenStream c.chunks x := by
  rw [tokenStream?, firstWhere_eq_some_iff, IsTokenStream]
  simp only [isTokenStream_iff]

theorem tokenStream?_eq_none_iff :
    c.tokenStream? = none ↔ ∀ y ∈ c.chunks, y.fourcc ≠ .shex ∧ y.fourcc ≠ .shdr := by
  rw [tokenStream?, firstWhere_eq_none_iff]
  simp only [isTokenStream_iff, not_or, ne_eq]

end Search

/-! ## Iteration is complete -/

/-- A container lists one chunk for each entry of its table, in table order, with
the code and the payload that the entry points to, and its searches find the first
chunk of that list that they look for. -/
theorem chunks_complete {b : Bytes} {c : Container} (h : parse b = .ok c) :
    c.chunks.length = c.header.chunkCount.toNat ∧
      (∀ i, i < c.header.chunkCount.toNat →
        ChunkFits c.bytes c.bytes.tableEnd c.bytes.size (c.bytes.offsetAt i) ∧
          c.chunks[i]? = some (c.bytes.chunkAt (c.bytes.offsetAt i))) ∧
      (∀ f, c.chunksNamed f = c.chunks.filter (fun x => x.fourcc = f) ∧
        c.chunk? f = (c.chunksNamed f).head? ∧
        (c.chunk? f = none ↔ ∀ x ∈ c.chunks, x.fourcc ≠ f)) ∧
      (∀ x, c.programPart? = some x ↔ IsProgramPart c.chunks x) ∧
      ∀ x, c.tokenStream? = some x ↔ IsTokenStream c.chunks x := by
  have hb := wellFormed_of_parse h
  obtain rfl := eq_declared_of_parse h
  refine ⟨hb.length_chunks, ?_, ?_, ?_, ?_⟩
  · intro i hi
    exact ⟨hb.chunkFits_bytes hi, hb.getElem?_chunks hi⟩
  · intro f
    exact ⟨chunksNamed_eq_filter _ f, chunk?_eq_head? _ f, chunk?_eq_none_iff _⟩
  · intro x
    exact programPart?_eq_some_iff _
  · intro x
    exact tokenStream?_eq_some_iff _

/-- A container of two chunks, the second of which lies inside the payload of the
first: `ILDB` from 40 to 60, and in it `DXIL` from 48 to 60. -/
def nestedChunks : Bytes :=
  ⟨#[0x44, 0x58, 0x42, 0x43, 0, 0, 0, 0, 0, 0, 0, 0, 0, 0, 0, 0, 0, 0, 0, 0, 1, 0, 0, 0,
    60, 0, 0, 0, 2, 0, 0, 0, 40, 0, 0, 0, 48, 0, 0, 0, 0x49, 0x4c, 0x44, 0x42, 12, 0, 0, 0,
    0x44, 0x58, 0x49, 0x4c, 4, 0, 0, 0, 1, 2, 3, 4]⟩

theorem nestedChunks_wellFormed : WellFormed nestedChunks := by decide

theorem chunks_complete_nestedChunks :
    parse nestedChunks = .ok (declared nestedChunks) ∧
      (declared nestedChunks).chunks.length = 2 ∧
      (declared nestedChunks).chunks[1]? = some ⟨.dxil, ⟨#[1, 2, 3, 4]⟩⟩ := by
  have hparse := nestedChunks_wellFormed.parse_eq_ok
  have hchunks := chunks_complete hparse
  have hcount : (declared nestedChunks).header.chunkCount.toNat = 2 := by decide
  refine ⟨hparse, hcount ▸ hchunks.1, ?_⟩
  exact (hchunks.2.1 1 (by rw [hcount]; omega)).2

end Container

end ShaderIntake
