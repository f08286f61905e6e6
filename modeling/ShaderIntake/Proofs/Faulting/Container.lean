import ShaderIntake.Container.Checksum
import ShaderIntake.Container.Summary
import ShaderIntake.Proofs.Container.Checksum
import ShaderIntake.Proofs.Faulting.Steps

/-!
# Reading a container without a fault

The reader of containers, its search for chunks and its checksum, written with the steps
that can fault: `parse`, `chunks` and `structuralMd5`.  A `File` is what the reader
keeps, the bytes of the container and the bytes of its table, which is read again for
every search.

* `parse_eq_refuse`: reading does not fault on any bytes, and gives the same answer as
  `Container.parse`.  `parse_cases` is the form of it that later proofs use.
* `chunks_eq_ok`: listing the chunks does not fault on any file, read or not, and
  `structuralMd5_eq_ok`: neither does the checksum of a file that was read.
-/

namespace ShaderIntake.Faulting

/-! ## One chunk -/

/-- The chunk whose header is at `offset`; `index` is its place in the table. -/
def chunkAt (bytes : Bytes) (index offset : Nat) : Except Stop Chunk := do
  let start ← demand (Size.add? offset chunkHeaderSize)
    (.refused (.chunkOffsetOverflow index offset))
  let head ← demand (bytes.slice? offset start)
    (.refused (.chunkHeaderOutside index offset start bytes.size))
  let fourcc ← code head 0
  let size ← word head 4
  let stop ← demand (Size.add? start size.toNat)
    (.refused (.chunkSizeOverflow index size.toNat))
  let data ← demand (bytes.slice? start stop)
    (.refused (.chunkDataOutside index fourcc start stop bytes.size))
  return ⟨fourcc, data⟩

/-- The header of a chunk is eight bytes long once it is there, so both its words are. -/
theorem chunkAt_eq_refuse (bytes : Bytes) (index offset : Nat) :
    chunkAt bytes index offset =
      refuse (ChunkExtent.locate bytes index offset >>= fun x => .ok (x.read bytes)) := by
  simp only [chunkAt, ChunkExtent.locate, bind_assoc, refuse_bind, refuse_demand, refuse_require]
  apply demand_bind_congr
  intro start hstart
  obtain rfl : offset + 8 = start := Size.eq_of_add?_eq_some hstart
  simp only [demand_slice?_bind]
  apply require_bind_congr
  intro hrange
  have hsize : ByteArray.size (bytes.extract offset (offset + 8)) = 8 := by
    rw [Bytes.size_extract_of_le hrange.2]
    omega
  rw [code_eq_ok (by omega), word_eq_ok (by omega), liftM_ok, liftM_ok, ok_bind, ok_bind]
  apply demand_bind_congr
  intro stop hstop
  obtain rfl := Size.eq_of_add?_eq_some hstop
  rfl

/-! ## The table -/

/-- The entries of a table, four bytes each.  What does not fill an entry is left out. -/
def entries (table : Bytes) : List Bytes :=
  (List.range (table.size / 4)).map fun i => table.extract (4 * i) (4 * i + 4)

/-- The checks of the entries from the one numbered `index` on, in order. -/
def checkEntries (bytes : Bytes) (tableEnd : Nat) : Nat → List Bytes → Except Stop Unit
  | _, [] => .ok ()
  | index, raw :: rest => do
    let offset ← word raw 0
    require (tableEnd ≤ offset.toNat)
      (.refused (.offsetIntoHead index offset.toNat tableEnd))
    let _ ← chunkAt bytes index offset.toNat
    checkEntries bytes tableEnd (index + 1) rest

theorem size_of_mem_entries {table raw : Bytes} (h : raw ∈ entries table) : raw.size = 4 := by
  obtain ⟨i, hi, rfl⟩ := List.mem_map.1 h
  have hlt := List.mem_range.1 hi
  rw [Bytes.size_extract_of_le (by omega)]
  omega

theorem tableWords_eq_map_entries (table : Bytes) :
    Container.tableWords table = (entries table).map (·.word 0) := by
  rw [Container.tableWords, entries, List.map_map]
  apply List.map_congr_left
  intro i _
  rw [Function.comp_apply, Bytes.word_extract (by omega), Nat.add_zero]

theorem checkEntries_eq_refuse (bytes : Bytes) (tableEnd index : Nat) (raws : List Bytes)
    (hfour : ∀ raw ∈ raws, raw.size = 4) :
    checkEntries bytes tableEnd index raws =
      refuse (Container.checkEntries bytes tableEnd index (raws.map (·.word 0))) := by
  induction raws generalizing index with
  | nil => rfl
  | cons raw rest ih =>
    rw [List.forall_mem_cons] at hfour
    rw [checkEntries, word_eq_ok (by omega), liftM_ok, ok_bind, chunkAt_eq_refuse,
      ih (index + 1) hfour.2, List.map_cons, Container.checkEntries, Container.checkEntry]
    simp only [refuse_bind, refuse_require, bind_assoc, refuse_ok, ok_bind]
    rfl

/-! ## The whole container -/

/-- What the reader keeps of a container. -/
structure File where
  header : Header
  bytes : Bytes
  table : Bytes

/-- The container with the words of its table. -/
def File.container (f : File) : Container :=
  ⟨f.header, f.bytes, Container.tableWords f.table⟩

/-- The container at the start of `b`, or the first check that fails. -/
def parse (b : Bytes) : Except Stop File := do
  require (headerSize ≤ b.size) (.refused (.headerTruncated b.size))
  let magic ← demand (FourCC.ofBytes? b) (.refused .magicUnreadable)
  require (magic = .dxbc) (.refused (.badMagic magic))
  let field ← range b 4 20
  let checksum ← copied field 16
  let totalSize ← readWord b 24
  let chunkCount ← readWord b 28
  require (chunkCount ≤ maxChunkCount) (.refused (.tooManyChunks chunkCount))
  require (headerSize ≤ totalSize.toNat) (.refused (.totalSizeTooSmall totalSize))
  require (totalSize.toNat ≤ b.size) (.refused (.totalSizePastEnd totalSize b.size))
  let bytes ← range b 0 totalSize.toNat
  let tableSize ← times chunkCount.toNat 4
  let tableEnd ← plus headerSize tableSize
  require (tableEnd ≤ bytes.size) (.refused (.tablePastEnd tableEnd bytes.size))
  let table ← range bytes headerSize tableEnd
  checkEntries bytes tableEnd 0 (entries table)
  return ⟨⟨magic, checksum, totalSize, chunkCount⟩, bytes, table⟩

/-- Each step that can fault comes behind a check that keeps it in range: the header behind
that of its size, the container behind that of the declared size, the table behind that of
its end. -/
theorem parse_eq_refuse (b : Bytes) :
    (parse b >>= fun f => .ok f.container) = refuse (Container.parse b) := by
  simp only [parse, Container.parse, bind_assoc, refuse_bind, refuse_demand, refuse_require,
    readWord_eq_refuse]
  apply require_bind_congr
  intro hsize
  rw [headerSize] at hsize
  apply demand_bind_congr
  intro magic _
  apply require_bind_congr
  intro _
  have hfield : b.InRange 4 20 := ⟨by omega, by omega⟩
  have hchecksum : ByteArray.size (b.extract 4 20) = 16 := by
    rw [Bytes.size_extract_of_le (by omega)]
  rw [range_eq_ok hfield, liftM_ok, ok_bind, copied_eq_ok hchecksum, liftM_ok, ok_bind,
    Bytes.readRange_eq_ok hfield, refuse_ok, ok_bind,
    Bytes.readWord_eq_ok (by omega) (by rw [Size.limit]; omega), refuse_ok, ok_bind, ok_bind,
    Bytes.readWord_eq_ok (by omega) (by rw [Size.limit]; omega), refuse_ok, ok_bind, ok_bind]
  apply require_bind_congr
  intro _
  apply require_bind_congr
  intro _
  apply require_bind_congr
  intro htotal
  have hbytes : b.InRange 0 (b.word 24).toNat := ⟨by omega, htotal⟩
  -- The count is a word, so the end of the table cannot leave 64 bits.
  have hwords : (b.word 28).toNat < UInt32.size := (b.word 28).toNat_lt
  rw [UInt32.size] at hwords
  rw [range_eq_ok hbytes, liftM_ok, ok_bind, Bytes.readRange_eq_ok hbytes, refuse_ok, ok_bind,
    times_eq_ok (by rw [Size.limit]; omega), liftM_ok, ok_bind,
    plus_eq_ok (by rw [Size.limit, headerSize]; omega), liftM_ok, ok_bind]
  apply require_bind_congr
  intro htable
  have hrange : Bytes.InRange (b.extract 0 (b.word 24).toNat) headerSize
      (headerSize + (b.word 28).toNat * 4) := ⟨by omega, htable⟩
  rw [range_eq_ok hrange, liftM_ok, ok_bind, Bytes.readRange_eq_ok hrange, refuse_ok, ok_bind,
    checkEntries_eq_refuse _ _ _ _ fun _ => size_of_mem_entries, ← tableWords_eq_map_entries]
  rfl

/-- Reading ends with the same container or the same refusal, and never with a fault. -/
theorem parse_cases (b : Bytes) :
    (∃ f, parse b = .ok f ∧ Container.parse b = .ok f.container) ∨
      ∃ e, parse b = .error (.refused e) ∧ Container.parse b = .error e := by
  have h := parse_eq_refuse b
  cases hparse : Container.parse b with
  | ok c =>
    rw [hparse, refuse_ok, bind_eq_ok] at h
    obtain ⟨f, hf, hc⟩ := h
    exact .inl ⟨f, hf, (by rw [Except.ok.inj hc])⟩
  | error e =>
    rw [hparse] at h
    exact .inr ⟨e, bind_ok_eq_error.1 h, rfl⟩

/-! ## The chunks of a file -/

theorem pure_eq_ok {ε α : Type} (a : α) : (pure a : Except ε α) = .ok a := rfl

/-- The chunks that the entries point to, from the one numbered `index` on.  A refusal
passes the entry over, a fault does not. -/
def chunksFrom (bytes : Bytes) : Nat → List Bytes → Except Fault (List Chunk)
  | _, [] => .ok []
  | index, raw :: rest => do
    let offset ← word raw 0
    let found ← settle (chunkAt bytes index offset.toNat)
    let more ← chunksFrom bytes (index + 1) rest
    return found.toOption.toList ++ more

/-- The chunks in table order. -/
def chunks (f : File) : Except Fault (List Chunk) :=
  chunksFrom f.bytes 0 (entries f.table)

theorem toOption_require_bind {ε α : Type} {p : Prop} [Decidable p] {e : ε}
    {k : Unit → Except ε α} :
    (require p e >>= k).toOption = if p then (k ()).toOption else none := by
  by_cases hp : p
  · rw [require_bind_of_pos hp, if_pos hp]
  · rw [require_bind_of_neg hp, if_neg hp]
    rfl

theorem toOption_demand_bind {ε α β : Type} {o : Option α} {e : ε} {k : α → Except ε β} :
    (demand o e >>= k).toOption = o.bind fun a => (k a).toOption := by
  cases o with
  | none => rfl
  | some a => rw [demand_some, ok_bind, Option.bind_some]

theorem toOption_bind_ok {ε α β : Type} (x : Except ε α) (f : α → β) :
    (x >>= fun a => .ok (f a)).toOption = x.toOption.map f := by
  cases x <;> rfl

/-- The number of an entry is for errors only. -/
theorem toOption_locate (bytes : Bytes) (index index' offset : Nat) :
    (ChunkExtent.locate bytes index offset).toOption =
      (ChunkExtent.locate bytes index' offset).toOption := by
  simp only [ChunkExtent.locate, toOption_demand_bind, toOption_require_bind]

theorem filterMap_cons_eq_append {α β : Type} (f : α → Option β) (a : α) (l : List α) :
    (a :: l).filterMap f = (f a).toList ++ l.filterMap f := by
  cases h : f a with
  | none => rw [List.filterMap_cons_none h, Option.toList_none, List.nil_append]
  | some b => rw [List.filterMap_cons_some h, Option.toList_some, List.singleton_append]

theorem chunksFrom_eq_ok (bytes : Bytes) (index : Nat) (raws : List Bytes)
    (hfour : ∀ raw ∈ raws, raw.size = 4) :
    chunksFrom bytes index raws =
      .ok (((raws.map (·.word 0)).filterMap fun offset =>
        (ChunkExtent.locate bytes 0 offset.toNat).toOption).map (·.read bytes)) := by
  induction raws generalizing index with
  | nil => rfl
  | cons raw rest ih =>
    rw [List.forall_mem_cons] at hfour
    rw [chunksFrom, word_eq_ok (by omega), ok_bind, chunkAt_eq_refuse, settle_refuse, ok_bind,
      ih (index + 1) hfour.2, ok_bind, toOption_bind_ok, toOption_locate bytes index 0,
      List.map_cons, filterMap_cons_eq_append, List.map_append, Option.toList_map, pure_eq_ok]

/-- Listing the chunks reads four bytes of each entry and passes over what is refused. -/
theorem chunks_eq_ok (f : File) : chunks f = .ok f.container.chunks := by
  rw [chunks, chunksFrom_eq_ok _ _ _ fun _ => size_of_mem_entries, ← tableWords_eq_map_entries]
  rfl

/-! ## The checksum of a file -/

/-- The digest of the container with zeros in the checksum field. -/
def structuralMd5 (f : File) : Except Fault Bytes := do
  let before ← range f.bytes 0 4
  let behind ← range f.bytes 20 f.bytes.size
  return (((Md5.Stream.start.feed before).feed (Bytes.zeros 16)).feed behind).finish

/-- Both ranges are there because a container that was read has a whole header. -/
theorem structuralMd5_eq_ok {b : Bytes} {f : File} (h : parse b = .ok f) :
    structuralMd5 f = .ok f.container.structuralMd5 := by
  have hsize : 20 ≤ f.container.bytes.size := by
    obtain ⟨f', hf, hc⟩ | ⟨e, he, -⟩ := parse_cases b
    · obtain rfl := Except.ok.inj (h.symm.trans hf)
      have hb := Container.wellFormed_of_parse hc
      have htotal := hb.le_totalSize
      rw [Container.eq_declared_of_parse hc, hb.size_bytes]
      omega
    · rw [h] at he
      cases he
  have hbytes : f.container.bytes = f.bytes := rfl
  rw [Container.structuralMd5, Container.aroundChecksum?_eq_some hsize]
  rw [hbytes] at hsize
  rw [structuralMd5, range_eq_ok ⟨by omega, by omega⟩, ok_bind,
    range_eq_ok ⟨hsize, Nat.le_refl _⟩, ok_bind]
  rfl

end ShaderIntake.Faulting
