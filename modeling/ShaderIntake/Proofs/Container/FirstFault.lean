import ShaderIntake.Proofs.Container.Grammar

/-!
# The fault that is reported

A byte string can fail to be a container in many ways at once.  `FirstFault` says
which one is reported, on the bytes alone: by its group and by its text.  Each rule
repeats what must not be wrong before it, so the rules exclude each other.

The table comes last, and of its entries the first one that is bad is reported
(`EntryFault`).  `checkEntries_eq_error_iff` is the induction over the table: where
it stops at an entry, the chunks of all entries before fit.

`parse_reports_firstFault` is the main statement.
-/

namespace ShaderIntake

namespace Container

/-! ## Faults -/

/-- How entry `i` of the table is bad. -/
inductive EntryFault (b : Bytes) (i : Nat) : FormatError.Kind → String → Prop where
  | intoHead {region : String} (htable : b.offsetAt i < b.tableEnd)
      (hregion : region = if b.offsetAt i < 32 then "DXBC header" else "chunk offset table") :
      EntryFault b i .malformedOffsets
        s!"chunk {i} offset {b.offsetAt i} points into the {region} (need >= {b.tableEnd})"
  | headerOutside (htable : b.tableEnd ≤ b.offsetAt i)
      (hstop : b.totalSize < b.offsetAt i + 8) :
      EntryFault b i .outOfBounds
        s!"chunk {i} header at {b.offsetAt i}..{b.offsetAt i + 8} is outside total_size {
          b.totalSize}"
  | payloadOutside {code : FourCC} {stop : Nat} (htable : b.tableEnd ≤ b.offsetAt i)
      (hheader : b.offsetAt i + 8 ≤ b.totalSize)
      (hcode : code = FourCC.readAt b (b.offsetAt i))
      (hend : stop = b.offsetAt i + 8 + b.payloadSizeAt (b.offsetAt i))
      (hstop : b.totalSize < stop) :
      EntryFault b i .outOfBounds
        s!"chunk {i} ({code.text}) data at {b.offsetAt i + 8}..{stop} is outside total_size {
          b.totalSize}"

/-- All that is checked before the entries of the table. -/
structure SoundHead (b : Bytes) : Prop where
  header_le : 32 ≤ b.size
  magic : FourCC.readAt b 0 = .dxbc
  chunkCount_le : b.chunkCount ≤ 4096
  le_totalSize : 32 ≤ b.totalSize
  totalSize_le : b.totalSize ≤ b.size
  tableEnd_le : b.tableEnd ≤ b.totalSize

/-- The first thing that is wrong with `b`. -/
inductive FirstFault (b : Bytes) : FormatError.Kind → String → Prop where
  | headerTruncated (hsize : b.size < 32) :
      FirstFault b .malformedHeader s!"need at least {headerSize} bytes, got {b.size}"
  | badMagic {found : FourCC} (hsize : 32 ≤ b.size) (hfound : found = FourCC.readAt b 0)
      (hmagic : found ≠ .dxbc) :
      FirstFault b .malformedHeader
        s!"bad magic {found.quoted}, expected {FourCC.dxbc.quoted}"
  | tooManyChunks (hsize : 32 ≤ b.size) (hmagic : FourCC.readAt b 0 = .dxbc)
      (hcount : 4096 < b.chunkCount) :
      FirstFault b .malformedOffsets s!"chunk_count {b.chunkCount} exceeds maximum {maxChunkCount}"
  | totalSizeTooSmall (hsize : 32 ≤ b.size) (hmagic : FourCC.readAt b 0 = .dxbc)
      (hcount : b.chunkCount ≤ 4096) (hheader : b.totalSize < 32) :
      FirstFault b .malformedHeader
        s!"total_size {b.totalSize} is smaller than header size {headerSize}"
  | totalSizePastEnd (hsize : 32 ≤ b.size) (hmagic : FourCC.readAt b 0 = .dxbc)
      (hcount : b.chunkCount ≤ 4096) (hheader : 32 ≤ b.totalSize)
      (htotal : b.size < b.totalSize) :
      FirstFault b .outOfBounds s!"total_size {b.totalSize} exceeds buffer length {b.size}"
  | tablePastEnd (hsize : 32 ≤ b.size) (hmagic : FourCC.readAt b 0 = .dxbc)
      (hcount : b.chunkCount ≤ 4096) (hheader : 32 ≤ b.totalSize)
      (htotal : b.totalSize ≤ b.size) (htable : b.totalSize < b.tableEnd) :
      FirstFault b .malformedOffsets
        s!"chunk offset table ends at {b.tableEnd}, but total_size is {b.totalSize}"
  | entry {i : Nat} {kind : FormatError.Kind} {text : String} (hhead : SoundHead b)
      (hi : i < b.chunkCount)
      (hbefore : ∀ j, j < i → ChunkFits b b.tableEnd b.totalSize (b.offsetAt j))
      (hfault : EntryFault b i kind text) : FirstFault b kind text

/-! ## Where the table fails -/

section Entries

variable {b : Bytes} {start : Nat} {e : FormatError}

/-- An entry fails with the first of its three checks that does not hold. -/
theorem checkEntry_eq_error_iff {index : Nat} {offset : UInt32} :
    checkEntry b start index offset = .error e ↔
      (offset.toNat < start ∧ e = .offsetIntoHead index offset.toNat start) ∨
      (start ≤ offset.toNat ∧ b.size < offset.toNat + 8 ∧
        e = .chunkHeaderOutside index offset.toNat (offset.toNat + 8) b.size) ∨
      (start ≤ offset.toNat ∧ offset.toNat + 8 ≤ b.size ∧
        b.size < offset.toNat + 8 + b.payloadSizeAt offset.toNat ∧
        e = .chunkDataOutside index (FourCC.readAt b offset.toNat) (offset.toNat + 8)
          (offset.toNat + 8 + b.payloadSizeAt offset.toNat) b.size) := by
  rw [checkEntry, ChunkExtent.locate_eq b index offset.toNat offset.toNat_lt]
  simp only [bind_assoc, require_bind_eq_error, Nat.not_le, pure, Except.pure, ok_bind,
    reduceCtorEq, and_false, or_false, and_or_left, @eq_comm _ e]

/-- The table fails with its first bad entry: the chunks of all entries before it fit. -/
theorem checkEntries_eq_error_iff {index : Nat} {offsets : List UInt32} :
    checkEntries b start index offsets = .error e ↔
      ∃ i, ∃ hi : i < offsets.length,
        (∀ j, (hj : j < i) → ChunkFits b start b.size offsets[j].toNat) ∧
          checkEntry b start (index + i) offsets[i] = .error e := by
  induction offsets generalizing index with
  | nil => simp [checkEntries]
  | cons offset rest ih =>
    rw [checkEntries]
    constructor
    · intro h
      cases hoffset : checkEntry b start index offset with
      | error e' =>
        rw [hoffset, error_bind] at h
        refine ⟨0, by simp, by simp, ?_⟩
        rw [← h]
        exact hoffset
      | ok =>
        rw [hoffset, ok_bind] at h
        obtain ⟨i, hi, hbefore, hi_error⟩ := ih.1 h
        refine ⟨i + 1, Nat.succ_lt_succ hi, ?_, ?_⟩
        · intro j hj
          cases j with
          | zero => exact (checkEntry_eq_ok_iff b start index offset).1 hoffset
          | succ j => exact hbefore j (Nat.lt_of_succ_lt_succ hj)
        · rw [show index + (i + 1) = index + 1 + i by omega]
          exact hi_error
    · intro h
      obtain ⟨i, hi, hbefore, hi_error⟩ := h
      cases i with
      | zero =>
        have hoffset : checkEntry b start index offset = .error e := hi_error
        rw [hoffset, error_bind]
      | succ i =>
        have hoffset : checkEntry b start index offset = .ok () :=
          (checkEntry_eq_ok_iff b start index offset).2 (hbefore 0 (Nat.succ_pos i))
        rw [hoffset, ok_bind]
        refine ih.2 ⟨i, Nat.lt_of_succ_lt_succ hi, ?_, ?_⟩
        · intro j hj
          exact hbefore (j + 1) (Nat.succ_lt_succ hj)
        · rw [show index + 1 + i = index + (i + 1) by omega]
          exact hi_error

end Entries

section Declared

variable {b : Bytes}

theorem length_tableOffsets (b : Bytes) : b.tableOffsets.length = b.chunkCount := by
  rw [Bytes.tableOffsets, List.length_map, List.length_range]

theorem toNat_getElem_tableOffsets {i : Nat} (hi : i < b.tableOffsets.length) :
    b.tableOffsets[i].toNat = b.offsetAt i := by
  simp [Bytes.tableOffsets, Bytes.offsetAt]

/-- An entry of the table of `b` is bad in the way that its check reports. -/
theorem entryFault_iff_checkEntry (hhead : SoundHead b) {i : Nat}
    (hi : i < b.tableOffsets.length) {kind : FormatError.Kind} {text : String} :
    EntryFault b i kind text ↔
      ∃ e, checkEntry (b.extract 0 b.totalSize) b.tableEnd i b.tableOffsets[i] = .error e ∧
        e.kind = kind ∧ e.context = text := by
  have hsize : ByteArray.size (b.extract 0 b.totalSize) = b.totalSize :=
    Bytes.size_extract_zero hhead.totalSize_le
  simp only [checkEntry_eq_error_iff, toNat_getElem_tableOffsets hi, hsize]
  constructor
  · intro h
    cases h with
    | intoHead htable hregion => exact ⟨_, .inl ⟨htable, rfl⟩, rfl, by rw [hregion]; rfl⟩
    | headerOutside htable hstop => exact ⟨_, .inr (.inl ⟨htable, hstop, rfl⟩), rfl, rfl⟩
    | payloadOutside htable hheader hcode hend hstop =>
      refine ⟨_, .inr (.inr ⟨htable, hheader, ?_, rfl⟩), rfl, ?_⟩
      · rw [payloadSizeAt_extract b hheader, ← hend]
        exact hstop
      · rw [payloadSizeAt_extract b hheader, ← hend, FourCC.readAt_extract (by omega),
          Nat.zero_add, ← hcode]
        rfl
  · intro h
    obtain ⟨e, hfault, rfl, rfl⟩ := h
    obtain ⟨htable, rfl⟩ | ⟨htable, hstop, rfl⟩ | ⟨htable, hheader, hstop, rfl⟩ := hfault
    · exact .intoHead htable rfl
    · exact .headerOutside htable hstop
    · rw [payloadSizeAt_extract b hheader] at hstop ⊢
      rw [FourCC.readAt_extract (by omega), Nat.zero_add]
      exact .payloadOutside htable hheader rfl rfl hstop

end Declared

section Parse

variable {b : Bytes}

/-- The table of `b` fails with its first bad entry. -/
theorem exists_entryFault_iff_checkEntries (hhead : SoundHead b) {kind : FormatError.Kind}
    {text : String} :
    (∃ i, i < b.chunkCount ∧
        (∀ j, j < i → ChunkFits b b.tableEnd b.totalSize (b.offsetAt j)) ∧
        EntryFault b i kind text) ↔
      ∃ e, checkEntries (b.extract 0 b.totalSize) b.tableEnd 0 b.tableOffsets = .error e ∧
        e.kind = kind ∧ e.context = text := by
  simp only [checkEntries_eq_error_iff, Nat.zero_add]
  constructor
  · intro h
    obtain ⟨i, hi, hbefore, hfault⟩ := h
    rw [← length_tableOffsets b] at hi
    obtain ⟨e, he, hkind, htext⟩ := (entryFault_iff_checkEntry hhead hi).1 hfault
    refine ⟨e, ⟨i, hi, ?_, he⟩, hkind, htext⟩
    intro j hj
    rw [toNat_getElem_tableOffsets, chunkFits_extract b hhead.totalSize_le]
    exact hbefore j hj
  · intro h
    obtain ⟨e, ⟨i, hi, hbefore, he⟩, hkind, htext⟩ := h
    refine ⟨i, length_tableOffsets b ▸ hi, ?_,
      (entryFault_iff_checkEntry hhead hi).2 ⟨e, he, hkind, htext⟩⟩
    intro j hj
    have hfits := hbefore j hj
    rw [toNat_getElem_tableOffsets, chunkFits_extract b hhead.totalSize_le] at hfits
    exact hfits

/-- Behind a sound head only the table is left to check. -/
theorem SoundHead.parse_eq (hhead : SoundHead b) :
    parse b = (do
      checkEntries (b.extract 0 b.totalSize) b.tableEnd 0 b.tableOffsets
      return declared b) := by
  rw [Container.parse_eq, require_bind_of_pos hhead.header_le, require_bind_of_pos hhead.magic,
    require_bind_of_pos ((word_le_maxChunkCount b).2 hhead.chunkCount_le),
    require_bind_of_pos hhead.le_totalSize, require_bind_of_pos hhead.totalSize_le,
    require_bind_of_pos hhead.tableEnd_le]

/-- What is reported is the first fault. -/
theorem firstFault_of_parse {e : FormatError} (h : parse b = .error e) :
    FirstFault b e.kind e.context := by
  by_cases hhead : SoundHead b
  · rw [hhead.parse_eq] at h
    cases hentries : checkEntries (b.extract 0 b.totalSize) b.tableEnd 0 b.tableOffsets with
    | error e' =>
      rw [hentries, error_bind] at h
      cases h
      obtain ⟨i, hi, hbefore, hfault⟩ :=
        (exists_entryFault_iff_checkEntries hhead).2 ⟨e, hentries, rfl, rfl⟩
      exact .entry hhead hi hbefore hfault
    | ok =>
      rw [hentries, ok_bind] at h
      cases h
  · rw [Container.parse_eq] at h
    simp only [require_bind_eq_error, word_le_maxChunkCount, Nat.not_le] at h
    obtain ⟨hsize, rfl⟩ | ⟨hsize, ⟨hmagic, rfl⟩ | ⟨hmagic, ⟨hcount, rfl⟩ | ⟨hcount,
      ⟨hheader, rfl⟩ | ⟨hheader, ⟨htotal, rfl⟩ | ⟨htotal, ⟨htable, rfl⟩ | ⟨htable, _⟩⟩⟩⟩⟩⟩ := h
    · exact .headerTruncated hsize
    · exact .badMagic hsize rfl hmagic
    · exact .tooManyChunks hsize hmagic hcount
    · exact .totalSizeTooSmall hsize hmagic hcount hheader
    · exact .totalSizePastEnd hsize hmagic hcount hheader htotal
    · exact .tablePastEnd hsize hmagic hcount hheader htotal htable
    · exact absurd ⟨hsize, hmagic, hcount, hheader, htotal, htable⟩ hhead

/-- The first fault is reported. -/
theorem FirstFault.exists_error {kind : FormatError.Kind} {text : String}
    (h : FirstFault b kind text) :
    ∃ e, parse b = .error e ∧ e.kind = kind ∧ e.context = text := by
  cases h with
  | headerTruncated hsize =>
    refine ⟨.headerTruncated b.size, ?_, rfl, rfl⟩
    rw [Container.parse_eq, require_bind_of_neg (Nat.not_le.2 hsize)]
  | badMagic hsize hfound hmagic =>
    subst hfound
    refine ⟨.badMagic (FourCC.readAt b 0), ?_, rfl, rfl⟩
    rw [Container.parse_eq, require_bind_of_pos hsize, require_bind_of_neg hmagic]
  | tooManyChunks hsize hmagic hcount =>
    refine ⟨.tooManyChunks (b.word 28), ?_, rfl, rfl⟩
    rw [Container.parse_eq, require_bind_of_pos hsize, require_bind_of_pos hmagic,
      require_bind_of_neg (mt (word_le_maxChunkCount b).1 (Nat.not_le.2 hcount))]
  | totalSizeTooSmall hsize hmagic hcount hheader =>
    refine ⟨.totalSizeTooSmall (b.word 24), ?_, rfl, rfl⟩
    rw [Container.parse_eq, require_bind_of_pos hsize, require_bind_of_pos hmagic,
      require_bind_of_pos ((word_le_maxChunkCount b).2 hcount),
      require_bind_of_neg (Nat.not_le.2 hheader)]
  | totalSizePastEnd hsize hmagic hcount hheader htotal =>
    refine ⟨.totalSizePastEnd (b.word 24) b.size, ?_, rfl, rfl⟩
    rw [Container.parse_eq, require_bind_of_pos hsize, require_bind_of_pos hmagic,
      require_bind_of_pos ((word_le_maxChunkCount b).2 hcount), require_bind_of_pos hheader,
      require_bind_of_neg (Nat.not_le.2 htotal)]
  | tablePastEnd hsize hmagic hcount hheader htotal htable =>
    refine ⟨.tablePastEnd b.tableEnd b.totalSize, ?_, rfl, rfl⟩
    rw [Container.parse_eq, require_bind_of_pos hsize, require_bind_of_pos hmagic,
      require_bind_of_pos ((word_le_maxChunkCount b).2 hcount), require_bind_of_pos hheader,
      require_bind_of_pos htotal, require_bind_of_neg (Nat.not_le.2 htable)]
  | entry hhead hi hbefore hfault =>
    obtain ⟨e, hentries, hkind, htext⟩ :=
      (exists_entryFault_iff_checkEntries hhead).1 ⟨_, hi, hbefore, hfault⟩
    refine ⟨e, ?_, hkind, htext⟩
    rw [hhead.parse_eq, hentries, error_bind]

theorem FirstFault.kind_ne_invalidChunk {kind : FormatError.Kind} {text : String}
    (h : FirstFault b kind text) : kind ≠ .invalidChunk := by
  cases h with
  | entry _ _ _ hfault => cases hfault <;> simp
  | _ => simp

end Parse

/-- A byte string that is no container is refused for its first fault, with the group
and the text of that fault.  No fault is a chunk whose payload is not what its code
says: reading a container does not look into the payloads. -/
theorem parse_reports_firstFault (b : Bytes) :
    (∀ kind text, (∃ e, parse b = .error e ∧ e.kind = kind ∧ e.context = text) ↔
        FirstFault b kind text) ∧
      ∀ e, parse b = .error e → e.kind ≠ .invalidChunk := by
  constructor
  · intro kind text
    constructor
    · intro h
      obtain ⟨e, he, rfl, rfl⟩ := h
      exact firstFault_of_parse he
    · intro h
      exact h.exists_error
  · intro e he
    exact (firstFault_of_parse he).kind_ne_invalidChunk

end Container

end ShaderIntake
