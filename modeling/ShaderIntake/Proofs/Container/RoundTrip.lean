import ShaderIntake.Container.Build
import ShaderIntake.Proofs.Container.Chunks

/-!
# Building and reading back

What `Container.build` writes, `Container.parse` reads back, whatever bytes follow.

* `laidOut` is the layout without the checks of numbers, and `build_eq_ok_iff` says
  that building gives it exactly when its size fits a 32-bit word: every count,
  offset and size in it is at most that.
* `chunkAt_chunkBytes` reads one chunk back between any other bytes, and
  `map_chunkAt_starts` and `chunkFits_starts` carry this through the list: `front`
  is what already lies before the chunks, so the induction moves along it.
* `tableOffsets_laidOut` reads the table back, and `wellFormed_laidOut` puts the
  three parts together.
-/

namespace ShaderIntake

/-! ## Numbers that fit -/

theorem fitWord_of_lt {number : StoredNumber} {value : Nat} (h : value < UInt32.size) :
    fitWord number value = .ok (UInt32.ofNat value) := by
  rw [fitWord, if_pos h]

theorem fitWord_of_le {number : StoredNumber} {value : Nat} (h : UInt32.size ≤ value) :
    fitWord number value = .error ⟨number, value⟩ := by
  rw [fitWord, if_neg (by omega)]

namespace Container

/-! ## The layout -/

/-- A chunk with its header. -/
def chunkBytes (x : Chunk) : Bytes :=
  x.fourcc.toBytes ++ (Bytes.ofWord (UInt32.ofNat x.data.size) ++ x.data)

/-- Chunks one after the other. -/
def chunksBytes : List Chunk → Bytes
  | [] => ByteArray.empty
  | x :: rest => chunkBytes x ++ chunksBytes rest

/-- Where chunks start that follow each other from `offset` on. -/
def starts : Nat → List Chunk → List UInt32
  | _, [] => []
  | offset, x :: rest => UInt32.ofNat offset :: starts (offset + (8 + x.data.size)) rest

/-- The words of a table. -/
def tableBytes (offsets : List UInt32) : Bytes :=
  Bytes.concat (offsets.map Bytes.ofWord)

/-- The header in front of the table. -/
def headBytes (totalSize chunkCount : Nat) : Bytes :=
  FourCC.dxbc.toBytes ++ (Bytes.zeros 16 ++ (Bytes.ofWord 1
    ++ (Bytes.ofWord (UInt32.ofNat totalSize) ++ Bytes.ofWord (UInt32.ofNat chunkCount))))

/-- A whole container. -/
def laidOut (chunks : List Chunk) : Bytes :=
  headBytes (builtSize chunks) chunks.length
    ++ (tableBytes (starts (32 + 4 * chunks.length) chunks) ++ chunksBytes chunks)

@[simp] theorem size_chunkBytes (x : Chunk) : (chunkBytes x).size = 8 + x.data.size := by
  simp only [chunkBytes, ByteArray.size_append, FourCC.size_toBytes, Bytes.size_ofWord]
  omega

theorem size_chunksBytes (chunks : List Chunk) :
    (chunksBytes chunks).size = chunksSize chunks := by
  induction chunks with
  | nil => rfl
  | cons x rest ih =>
    rw [chunksBytes, ByteArray.size_append, size_chunkBytes, ih, chunksSize, chunkHeaderSize]

@[simp] theorem length_starts (offset : Nat) (chunks : List Chunk) :
    (starts offset chunks).length = chunks.length := by
  induction chunks generalizing offset with
  | nil => rfl
  | cons x rest ih => rw [starts, List.length_cons, ih, List.length_cons]

theorem size_tableBytes (offsets : List UInt32) :
    (tableBytes offsets).size = 4 * offsets.length := by
  induction offsets with
  | nil => rfl
  | cons w rest ih =>
    rw [tableBytes, List.map_cons, Bytes.concat_cons, ByteArray.size_append, ← tableBytes, ih,
      Bytes.size_ofWord, List.length_cons]
    omega

@[simp] theorem size_headBytes (totalSize chunkCount : Nat) :
    (headBytes totalSize chunkCount).size = 32 := by
  simp only [headBytes, ByteArray.size_append, FourCC.size_toBytes, Bytes.size_zeros,
    Bytes.size_ofWord]

theorem size_laidOut (chunks : List Chunk) : (laidOut chunks).size = builtSize chunks := by
  rw [laidOut, ByteArray.size_append, ByteArray.size_append, size_headBytes, size_tableBytes,
    length_starts, size_chunksBytes, builtSize, headerSize]
  omega

/-! ## Building gives the layout -/

/-- Chunks that end below the limit of a word are laid out. -/
theorem layOut_eq_ok {offset : Nat} {chunks : List Chunk}
    (h : offset + chunksSize chunks < UInt32.size) :
    ∃ pieces, layOut offset chunks = .ok (starts offset chunks, pieces) ∧
      Bytes.concat pieces = chunksBytes chunks := by
  induction chunks generalizing offset with
  | nil => exact ⟨[], rfl, rfl⟩
  | cons x rest ih =>
    rw [chunksSize, chunkHeaderSize] at h
    have hfits : offset + (8 + x.data.size) + chunksSize rest < UInt32.size := by omega
    obtain ⟨pieces, hrest, hconcat⟩ := ih hfits
    refine ⟨x.fourcc.toBytes :: Bytes.ofWord (UInt32.ofNat x.data.size) :: x.data :: pieces,
      ?_, ?_⟩
    · rw [layOut, fitWord_of_lt (by omega), ok_bind, fitWord_of_lt (by omega), ok_bind,
        chunkHeaderSize, hrest, ok_bind]
      rfl
    · simp only [Bytes.concat_cons, hconcat, chunksBytes, chunkBytes, ByteArray.append_assoc]

theorem concat_laidOut (chunks : List Chunk) {pieces : List Bytes}
    (hpieces : Bytes.concat pieces = chunksBytes chunks) :
    Bytes.concat (FourCC.dxbc.toBytes :: Bytes.zeros 16 :: Bytes.ofWord 1
        :: Bytes.ofWord (UInt32.ofNat (builtSize chunks))
        :: Bytes.ofWord (UInt32.ofNat chunks.length)
        :: ((starts (32 + 4 * chunks.length) chunks).map Bytes.ofWord ++ pieces)) =
      laidOut chunks := by
  simp only [Bytes.concat_cons, Bytes.concat_append, hpieces, laidOut, headBytes, tableBytes,
    ByteArray.append_assoc]

/-- Building gives the layout, exactly when its size fits a word. -/
theorem build_eq_ok_iff {chunks : List Chunk} {b : Bytes} :
    build chunks = .ok b ↔ builtSize chunks < UInt32.size ∧ b = laidOut chunks := by
  have hsize : builtSize chunks = 32 + 4 * chunks.length + chunksSize chunks := rfl
  by_cases hfits : builtSize chunks < UInt32.size
  · have hlayOut : 32 + 4 * chunks.length + chunksSize chunks < UInt32.size := by omega
    obtain ⟨pieces, hpieces, hconcat⟩ := layOut_eq_ok hlayOut
    have hbuild : build chunks = .ok (laidOut chunks) := by
      rw [build, fitWord_of_lt (by omega), ok_bind, headerSize, hpieces, ok_bind,
        fitWord_of_lt hfits, ← concat_laidOut chunks hconcat]
      rfl
    rw [hbuild]
    constructor
    · intro h
      exact ⟨hfits, (Except.ok.inj h).symm⟩
    · intro h
      rw [h.2]
  · constructor
    · intro h
      rw [build] at h
      obtain ⟨_, _, h⟩ := bind_eq_ok.1 h
      obtain ⟨_, _, h⟩ := bind_eq_ok.1 h
      obtain ⟨_, htotal, _⟩ := bind_eq_ok.1 h
      rw [fitWord_of_le (by omega)] at htotal
      cases htotal
    · intro h
      exact absurd h.1 hfits

/-! ## Chunks between other bytes -/

/-- A chunk is read back where it was written. -/
theorem chunkAt_chunkBytes {b front back : Bytes} {x : Chunk} {offset : Nat}
    (hb : b = front ++ (chunkBytes x ++ back)) (hoffset : offset = front.size)
    (hsize : x.data.size < UInt32.size) :
    b.payloadSizeAt offset = x.data.size ∧ b.chunkAt offset = x := by
  subst hoffset
  have hcode : FourCC.readAt b front.size = x.fourcc := by
    apply FourCC.readAt_of_eq _ rfl
    · exact Bytes.ofWord (UInt32.ofNat x.data.size) ++ x.data ++ back
    · rw [hb, chunkBytes]
      simp only [ByteArray.append_assoc]
  have hword : b.word (front.size + 4) = UInt32.ofNat x.data.size := by
    have hsplit : b = (front ++ x.fourcc.toBytes) ++
        (Bytes.ofWord (UInt32.ofNat x.data.size) ++ (x.data ++ back)) := by
      rw [hb, chunkBytes]
      simp only [ByteArray.append_assoc]
    exact Bytes.word_of_eq hsplit (by rw [ByteArray.size_append, FourCC.size_toBytes])
  have hpayload : b.payloadSizeAt front.size = x.data.size := by
    rw [Bytes.payloadSizeAt, hword, UInt32.toNat_ofNat_of_lt' hsize]
  have hdata : b.extract (front.size + 8) (front.size + 8 + x.data.size) = x.data := by
    have hsplit : b = (front ++ x.fourcc.toBytes ++
        Bytes.ofWord (UInt32.ofNat x.data.size)) ++ (x.data ++ back) := by
      rw [hb, chunkBytes]
      simp only [ByteArray.append_assoc]
    have hfront : front.size + 8 = ByteArray.size (front ++ x.fourcc.toBytes ++
        Bytes.ofWord (UInt32.ofNat x.data.size)) := by
      simp only [ByteArray.size_append, FourCC.size_toBytes, Bytes.size_ofWord]
    exact Bytes.extract_of_eq hsplit hfront (by rw [← hfront])
  refine ⟨hpayload, ?_⟩
  rw [Bytes.chunkAt, hpayload, hcode, hdata]

-- Both inductions below move the first chunk from the chunks to `front`, and the rest
-- then starts where the longer front ends.
section Split

variable {b front back : Bytes} {x : Chunk} {rest : List Chunk}
  (hb : b = front ++ (chunksBytes (x :: rest) ++ back))

include hb

theorem split_before_chunk : b = front ++ (chunkBytes x ++ (chunksBytes rest ++ back)) := by
  rw [hb, chunksBytes, ByteArray.append_assoc]

theorem split_behind_chunk : b = (front ++ chunkBytes x) ++ (chunksBytes rest ++ back) := by
  rw [split_before_chunk hb, ByteArray.append_assoc]

end Split

theorem size_append_chunkBytes (front : Bytes) (x : Chunk) :
    (front ++ chunkBytes x).size = front.size + (8 + x.data.size) := by
  rw [ByteArray.size_append, size_chunkBytes]

/-- Chunks laid out from the end of `front` on are read back at their starts. -/
theorem map_chunkAt_starts {b front back : Bytes} {chunks : List Chunk}
    (hb : b = front ++ (chunksBytes chunks ++ back))
    (hsize : front.size + chunksSize chunks < UInt32.size) :
    (starts front.size chunks).map (fun offset => b.chunkAt offset.toNat) = chunks := by
  induction chunks generalizing front with
  | nil => rfl
  | cons x rest ih =>
    rw [chunksSize, chunkHeaderSize] at hsize
    have hfront := size_append_chunkBytes front x
    have hrest := ih (split_behind_chunk hb) (by rw [hfront]; omega)
    have hx := chunkAt_chunkBytes (split_before_chunk hb) rfl (by omega)
    rw [starts, List.map_cons, UInt32.toNat_ofNat_of_lt' (by omega), hx.2, ← hfront, hrest]

/-- Chunks laid out from the end of `front` on lie behind it and end where the
last one ends. -/
theorem chunkFits_starts {b front back : Bytes} {chunks : List Chunk}
    (hb : b = front ++ (chunksBytes chunks ++ back))
    (hsize : front.size + chunksSize chunks < UInt32.size) :
    ∀ offset ∈ starts front.size chunks,
      ChunkFits b front.size (front.size + chunksSize chunks) offset.toNat := by
  induction chunks generalizing front with
  | nil => simp [starts]
  | cons x rest ih =>
    rw [chunksSize, chunkHeaderSize] at hsize ⊢
    have hfront := size_append_chunkBytes front x
    have hrest := ih (split_behind_chunk hb) (by rw [hfront]; omega)
    have hx := chunkAt_chunkBytes (split_before_chunk hb) rfl (by omega)
    rw [starts, List.forall_mem_cons, UInt32.toNat_ofNat_of_lt' (by omega)]
    constructor
    · exact ⟨by omega, by omega, by rw [hx.1]; omega⟩
    · intro offset hoffset
      rw [← hfront] at hoffset
      have hfits := hrest offset hoffset
      -- The rest lies behind `x`, so behind `front`, and ends where all of it ends.
      have hstart := hfits.start_le
      have hpayload := hfits.payload_le
      rw [hfront] at hstart hpayload
      exact ⟨by omega, by omega, by omega⟩

/-! ## The table and the header -/

/-- A table is read back, one word for each entry. -/
theorem map_word_tableBytes {b front back : Bytes} {offsets : List UInt32}
    (hb : b = front ++ (tableBytes offsets ++ back)) :
    (List.range offsets.length).map (fun i => b.word (front.size + 4 * i)) = offsets := by
  induction offsets generalizing front with
  | nil => rfl
  | cons w rest ih =>
    have hsplit : b = front ++ (Bytes.ofWord w ++ (tableBytes rest ++ back)) := by
      rw [hb, tableBytes, List.map_cons, Bytes.concat_cons, ByteArray.append_assoc, tableBytes]
    have hbehind : b = (front ++ Bytes.ofWord w) ++ (tableBytes rest ++ back) := by
      rw [hsplit, ByteArray.append_assoc]
    have hshift : ∀ i, front.size + 4 * (i + 1) =
        ByteArray.size (front ++ Bytes.ofWord w) + 4 * i := by
      intro i
      rw [ByteArray.size_append, Bytes.size_ofWord]
      omega
    rw [List.length_cons, List.range_succ_eq_map, List.map_cons, List.map_map]
    have hword : b.word (front.size + 4 * 0) = w := Bytes.word_of_eq hsplit rfl
    have hrest := ih hbehind
    simp only [← hshift] at hrest
    rw [hword]
    exact congrArg (w :: ·) hrest

/-- The layout with its parts named, followed by `suffix`. -/
theorem laidOut_append (chunks : List Chunk) (suffix : Bytes) :
    laidOut chunks ++ suffix = headBytes (builtSize chunks) chunks.length
      ++ (tableBytes (starts (32 + 4 * chunks.length) chunks)
        ++ (chunksBytes chunks ++ suffix)) := by
  simp only [laidOut, ByteArray.append_assoc]

section Head

variable {b back : Bytes} {totalSize chunkCount : Nat}

theorem readAt_headBytes (hb : b = headBytes totalSize chunkCount ++ back) :
    FourCC.readAt b 0 = .dxbc := by
  have hsplit : b = ByteArray.empty ++ (FourCC.dxbc.toBytes ++ (Bytes.zeros 16 ++
      (Bytes.ofWord 1 ++ (Bytes.ofWord (UInt32.ofNat totalSize) ++
        (Bytes.ofWord (UInt32.ofNat chunkCount) ++ back))))) := by
    rw [hb, headBytes]
    simp only [ByteArray.append_assoc, ByteArray.empty_append]
  exact FourCC.readAt_of_eq hsplit rfl

/-- The checksum field is written as zeros. -/
theorem extract_headBytes (hb : b = headBytes totalSize chunkCount ++ back) :
    b.extract 4 20 = Bytes.zeros 16 := by
  have hsplit : b = FourCC.dxbc.toBytes ++ (Bytes.zeros 16 ++ (Bytes.ofWord 1 ++
      (Bytes.ofWord (UInt32.ofNat totalSize) ++
        (Bytes.ofWord (UInt32.ofNat chunkCount) ++ back)))) := by
    rw [hb, headBytes]
    simp only [ByteArray.append_assoc]
  exact Bytes.extract_of_eq hsplit rfl rfl

theorem totalSize_headBytes (hb : b = headBytes totalSize chunkCount ++ back)
    (hfits : totalSize < UInt32.size) : b.totalSize = totalSize := by
  have hsplit : b = (FourCC.dxbc.toBytes ++ Bytes.zeros 16 ++ Bytes.ofWord 1) ++
      (Bytes.ofWord (UInt32.ofNat totalSize) ++
        (Bytes.ofWord (UInt32.ofNat chunkCount) ++ back)) := by
    rw [hb, headBytes]
    simp only [ByteArray.append_assoc]
  have hword : b.word 24 = UInt32.ofNat totalSize := Bytes.word_of_eq hsplit rfl
  rw [Bytes.totalSize, hword, UInt32.toNat_ofNat_of_lt' hfits]

theorem chunkCount_headBytes (hb : b = headBytes totalSize chunkCount ++ back)
    (hfits : chunkCount < UInt32.size) : b.chunkCount = chunkCount := by
  have hsplit : b = (FourCC.dxbc.toBytes ++ Bytes.zeros 16 ++ Bytes.ofWord 1 ++
      Bytes.ofWord (UInt32.ofNat totalSize)) ++
        (Bytes.ofWord (UInt32.ofNat chunkCount) ++ back) := by
    rw [hb, headBytes]
    simp only [ByteArray.append_assoc]
  have hword : b.word 28 = UInt32.ofNat chunkCount := Bytes.word_of_eq hsplit rfl
  rw [Bytes.chunkCount, hword, UInt32.toNat_ofNat_of_lt' hfits]

end Head

/-! ## The whole container -/

section LaidOut

variable {b back : Bytes} {chunks : List Chunk}

/-- The table of a layout holds the starts of its chunks. -/
theorem tableOffsets_laidOut (hb : b = laidOut chunks ++ back)
    (hfits : builtSize chunks < UInt32.size) :
    b.tableOffsets = starts (32 + 4 * chunks.length) chunks := by
  have hsize : builtSize chunks = 32 + 4 * chunks.length + chunksSize chunks := rfl
  rw [laidOut_append] at hb
  have htable := map_word_tableBytes hb
  have hcount : b.chunkCount = chunks.length := chunkCount_headBytes hb (by omega)
  rw [size_headBytes, length_starts] at htable
  rw [Bytes.tableOffsets, hcount, htable]

theorem laidOut_split (hb : b = laidOut chunks ++ back) :
    ∃ front : Bytes, front.size = 32 + 4 * chunks.length ∧
      b = front ++ (chunksBytes chunks ++ back) := by
  refine ⟨headBytes (builtSize chunks) chunks.length
    ++ tableBytes (starts (32 + 4 * chunks.length) chunks), ?_, ?_⟩
  · rw [ByteArray.size_append, size_headBytes, size_tableBytes, length_starts]
  · rw [hb, laidOut_append, ByteArray.append_assoc]

/-- A layout of at most 4096 chunks is a container, and so is what starts with one. -/
theorem wellFormed_laidOut (hb : b = laidOut chunks ++ back)
    (hfits : builtSize chunks < UInt32.size) (hlength : chunks.length ≤ 4096) :
    WellFormed b := by
  have hsize : builtSize chunks = 32 + 4 * chunks.length + chunksSize chunks := rfl
  have hhead := hb
  rw [laidOut_append] at hhead
  have htotal : b.totalSize = builtSize chunks := totalSize_headBytes hhead hfits
  have hcount : b.chunkCount = chunks.length := chunkCount_headBytes hhead (by omega)
  have hend : b.tableEnd = 32 + 4 * chunks.length := by rw [Bytes.tableEnd, hcount]
  have hbSize : b.size = builtSize chunks + back.size := by
    rw [hb, ByteArray.size_append, size_laidOut]
  have hchunks : ∀ i, i < b.chunkCount →
      ChunkFits b b.tableEnd b.totalSize (b.offsetAt i) := by
    obtain ⟨front, hfront, hsplit⟩ := laidOut_split hb
    rw [← forall_mem_tableOffsets b, tableOffsets_laidOut hb hfits, hend, htotal, hsize,
      ← hfront]
    exact chunkFits_starts hsplit (by omega)
  exact ⟨by omega, readAt_headBytes hhead, by omega, by omega, by omega, by omega, hchunks⟩

/-- The chunks of a layout are the ones that were laid out. -/
theorem chunks_laidOut (hb : b = laidOut chunks ++ back)
    (hfits : builtSize chunks < UInt32.size) (hlength : chunks.length ≤ 4096) :
    (declared b).chunks = chunks := by
  have hsize : builtSize chunks = 32 + 4 * chunks.length + chunksSize chunks := rfl
  obtain ⟨front, hfront, hsplit⟩ := laidOut_split hb
  have htable : b.tableChunks = b.tableOffsets.map fun offset => b.chunkAt offset.toNat := by
    rw [Bytes.tableOffsets, List.map_map]
    rfl
  rw [(wellFormed_laidOut hb hfits hlength).chunks_declared, htable,
    tableOffsets_laidOut hb hfits, ← hfront]
  exact map_chunkAt_starts hsplit (by omega)

/-- A layout of more chunks is refused for its number of chunks. -/
theorem parse_laidOut_of_lt (hb : b = laidOut chunks ++ back)
    (hfits : builtSize chunks < UInt32.size) (hlength : 4096 < chunks.length) :
    parse b = .error (.tooManyChunks (b.word 28)) := by
  have hsize : builtSize chunks = 32 + 4 * chunks.length + chunksSize chunks := rfl
  have hhead := hb
  rw [laidOut_append] at hhead
  have hcount : b.chunkCount = chunks.length := chunkCount_headBytes hhead (by omega)
  have hbSize : b.size = builtSize chunks + back.size := by
    rw [hb, ByteArray.size_append, size_laidOut]
  have hmany : ¬b.word 28 ≤ maxChunkCount := by
    rw [word_le_maxChunkCount]
    omega
  rw [parse_eq, require_bind_of_pos (by omega), require_bind_of_pos (readAt_headBytes hhead),
    require_bind_of_neg hmany]

end LaidOut

theorem chunksSize_eq_foldr (chunks : List Chunk) :
    chunksSize chunks = chunks.foldr (fun x total => 8 + x.data.size + total) 0 := by
  induction chunks with
  | nil => rfl
  | cons x rest ih => rw [chunksSize, ih, List.foldr_cons, chunkHeaderSize]

theorem build_eq_error_iff (chunks : List Chunk) :
    (∃ m, build chunks = .error m) ↔ UInt32.size ≤ builtSize chunks := by
  rw [exists_eq_error_iff]
  constructor
  · intro hnever
    apply Nat.le_of_not_lt
    intro hfits
    exact hnever _ (build_eq_ok_iff.2 ⟨hfits, rfl⟩)
  · intro hle b hbuild
    exact absurd (build_eq_ok_iff.1 hbuild).1 (Nat.not_lt.2 hle)

/-- Building fails exactly for containers whose size fits no word.  What it builds
has that size and is read back, also in front of other bytes, exactly if it has at
most 4096 chunks; and reading then gives the chunks that it was built from. -/
theorem build_parse_roundTrip (chunks : List Chunk) :
    ((∃ m, build chunks = .error m) ↔
        UInt32.size ≤ 32 + 4 * chunks.length
          + chunks.foldr (fun x total => 8 + x.data.size + total) 0) ∧
      ∀ b, build chunks = .ok b →
        b.size = 32 + 4 * chunks.length
          + chunks.foldr (fun x total => 8 + x.data.size + total) 0 ∧
        ∀ suffix : Bytes,
          ((∃ c, parse (b ++ suffix) = .ok c) ↔ chunks.length ≤ 4096) ∧
          (∀ e, parse (b ++ suffix) = .error e → e.kind = .malformedOffsets) ∧
          ∀ c, parse (b ++ suffix) = .ok c →
            c.chunks = chunks ∧ c.header.totalSize.toNat = b.size ∧
              c.header.chunkCount.toNat = chunks.length ∧
              c.header.checksum = Bytes.zeros 16 := by
  have hsize : builtSize chunks = 32 + 4 * chunks.length
      + chunks.foldr (fun x total => 8 + x.data.size + total) 0 := by
    rw [builtSize, headerSize, chunksSize_eq_foldr]
  rw [← hsize]
  refine ⟨build_eq_error_iff chunks, ?_⟩
  intro b hbuild
  obtain ⟨hfits, rfl⟩ := build_eq_ok_iff.1 hbuild
  refine ⟨size_laidOut chunks, ?_⟩
  intro suffix
  have hb : laidOut chunks ++ suffix = laidOut chunks ++ suffix := rfl
  by_cases hlength : chunks.length ≤ 4096
  · have hparse := (wellFormed_laidOut hb hfits hlength).parse_eq_ok
    refine ⟨⟨fun _ => hlength, fun _ => ⟨_, hparse⟩⟩, ?_, ?_⟩
    · intro e he
      rw [hparse] at he
      cases he
    · intro c hc
      obtain rfl := eq_declared_of_parse hc
      have hhead := laidOut_append chunks suffix
      have htotal := totalSize_headBytes hhead hfits
      have hcount := chunkCount_headBytes hhead (by omega)
      rw [size_laidOut]
      exact ⟨chunks_laidOut hb hfits hlength, htotal, hcount, extract_headBytes hhead⟩
  · have hparse := parse_laidOut_of_lt hb hfits (Nat.lt_of_not_le hlength)
    refine ⟨⟨?_, fun hle => absurd hle hlength⟩, ?_, ?_⟩
    · intro h
      obtain ⟨c, hc⟩ := h
      rw [hparse] at hc
      cases hc
    · intro e he
      rw [hparse] at he
      cases he
      rfl
    · intro c hc
      rw [hparse] at hc
      cases hc

end Container

end ShaderIntake
