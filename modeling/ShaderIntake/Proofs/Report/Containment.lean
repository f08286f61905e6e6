import ShaderIntake.Proofs.Container.Chunks
import ShaderIntake.Proofs.FourCC.Text
import ShaderIntake.Proofs.Program.Grammar
import ShaderIntake.Proofs.Report.Agreement

/-!
# Containment

Positions are counted from three places: the entries of the table from the start of the
file, a payload from its chunk, and the bitcode from the code in the header of the program.
Counted from the start of the file, everything that is handed out lies in what it was taken
from: a payload between the table and the declared size (`PayloadAt`), and the bitcode behind
the header of its program and inside the size that the program declares (`BitcodeAt`).

The numbers in a report are the sizes of what is handed out, so they are bounded by each
other (`Report.Bounded`).  A report has only the texts of codes; that they name the same
chunk is `FourCC.text_inj`.
-/

namespace ShaderIntake

namespace IsFirst

variable {α : Type} {p : α → Prop} {xs : List α} {x : α}

theorem holds (h : IsFirst p xs x) : p x := by
  obtain ⟨_, _, _, hx, _⟩ := h
  exact hx

/-- The first one has the number of what stands before it. -/
theorem exists_getElem? (h : IsFirst p xs x) :
    ∃ i, xs[i]? = some x ∧ ∀ (j : Nat) (y : α), j < i → xs[j]? = some y → ¬p y := by
  obtain ⟨before, after, rfl, -, hbefore⟩ := h
  refine ⟨before.length, by simp, ?_⟩
  intro j y hj hy
  rw [List.getElem?_append_left hj] at hy
  exact hbefore y (List.mem_of_getElem? hy)

end IsFirst

namespace Container

/-! ## In the bytes of a file -/

/-- `x` is the chunk at `offset`, and its payload is a range behind the table and inside the
declared size. -/
structure PayloadAt (b : Bytes) (offset : Nat) (x : Chunk) : Prop where
  data_eq : x.data = b.extract (offset + 8) (offset + 8 + (b.word (offset + 4)).toNat)
  size_eq : x.data.size = (b.word (offset + 4)).toNat
  start_le : 32 + 4 * b.chunkCount + 8 ≤ offset + 8
  stop_le : offset + 8 + (b.word (offset + 4)).toNat ≤ b.totalSize

/-- `p` is the program of the chunk at `offset`: its bitcode is a range behind the header of
the program and inside the declared words, and these are inside the chunk. -/
structure BitcodeAt (b : Bytes) (offset : Nat) (p : Program) : Prop where
  sizeInWords_eq : p.sizeInWords = b.word (offset + 12)
  bitcode_eq : p.bitcode = b.extract (offset + 16 + (b.word (offset + 24)).toNat)
    (offset + 16 + (b.word (offset + 24)).toNat + (b.word (offset + 28)).toNat)
  size_eq : p.bitcode.size = (b.word (offset + 28)).toNat
  start_le : offset + 32 ≤ offset + 16 + (b.word (offset + 24)).toNat
  stop_le : offset + 16 + (b.word (offset + 24)).toNat + (b.word (offset + 28)).toNat ≤
    offset + 8 + 4 * p.sizeInWords.toNat
  program_le : offset + 8 + 4 * p.sizeInWords.toNat ≤
    offset + 8 + (b.word (offset + 4)).toNat

section Declared

variable {b : Bytes} {i : Nat} {x : Chunk}

theorem WellFormed.lt_of_getElem?_chunks (hb : WellFormed b)
    (hx : (declared b).chunks[i]? = some x) : i < b.chunkCount := by
  rw [← hb.length_chunks]
  exact (List.getElem?_eq_some_iff.1 hx).1

theorem WellFormed.eq_chunkAt (hb : WellFormed b) (hx : (declared b).chunks[i]? = some x) :
    x = b.chunkAt (b.offsetAt i) := by
  have hi := hb.lt_of_getElem?_chunks hx
  rw [hb.chunks_declared, Bytes.getElem?_tableChunks hi] at hx
  exact (Option.some.inj hx).symm

theorem WellFormed.payloadAt (hb : WellFormed b) (hx : (declared b).chunks[i]? = some x) :
    PayloadAt b (b.offsetAt i) x := by
  obtain rfl := hb.eq_chunkAt hx
  have hfits := hb.chunkFits i (hb.lt_of_getElem?_chunks hx)
  have hinside := Nat.le_trans hfits.payload_le hb.totalSize_le
  refine ⟨rfl, ?_, Nat.add_le_add_right hfits.start_le 8, hfits.payload_le⟩
  rw [Bytes.chunkAt, Bytes.size_extract_of_le hinside, Nat.add_sub_cancel_left,
    Bytes.payloadSizeAt]

section Payload

variable {offset : Nat} (hx : PayloadAt b offset x)

include hx

theorem PayloadAt.word_data {p : Nat} (hp : p + 4 ≤ x.data.size) :
    x.data.word p = b.word (offset + 8 + p) := by
  rw [hx.size_eq] at hp
  rw [hx.data_eq, Bytes.word_extract (by omega)]

theorem PayloadAt.extract_data {start stop : Nat} (hstop : stop ≤ x.data.size) :
    x.data.extract start stop = b.extract (offset + 8 + start) (offset + 8 + stop) := by
  rw [hx.size_eq] at hstop
  rw [hx.data_eq, Bytes.extract_extract_of_le (by omega)]

/-- A position in the part is a position in the file, behind the eight bytes that are the
header of the chunk. -/
theorem PayloadAt.bitcodeAt {p : Program} (h : Program.parse x.data = .ok p) :
    BitcodeAt b offset p := by
  obtain ⟨hpart, rfl⟩ := (Program.parse_eq_ok_iff x.data).1 h
  have hheader := hpart.header_le
  have hoffset : x.data.word 16 = b.word (offset + 24) := hx.word_data (by omega)
  have hlength : x.data.word 20 = b.word (offset + 28) := hx.word_data (by omega)
  have hstart : offset + 8 + x.data.bitcodeStart =
      offset + 16 + (b.word (offset + 24)).toNat := by
    rw [Bytes.bitcodeStart, hoffset]
    omega
  have hstop : offset + 8 + x.data.bitcodeStop =
      offset + 16 + (b.word (offset + 24)).toNat + (b.word (offset + 28)).toNat := by
    rw [Bytes.bitcodeStop, hlength, ← Nat.add_assoc, hstart]
  have hwords : x.data.programSize = 4 * (Program.declared x.data).sizeInWords.toNat := rfl
  have hbehind := hpart.le_bitcodeStart
  have hinside := hpart.bitcodeStop_le
  have hprogram := hpart.programSize_le
  have hsize := hx.size_eq
  have hbitcode : (Program.declared x.data).bitcode =
      x.data.extract x.data.bitcodeStart x.data.bitcodeStop := rfl
  refine ⟨hx.word_data (by omega), ?_, ?_, by omega, by omega, by omega⟩
  · rw [hbitcode, hx.extract_data (by omega), hstart, hstop]
  · rw [hbitcode, Bytes.size_extract_of_le (by omega)]
    omega

end Payload

end Declared

/-! ## The part with the program -/

/-- The part with the program is the first chunk with its code. -/
theorem isFirst_of_programPart? {c : Container} {x : Chunk} (h : c.programPart? = some x) :
    IsFirst (fun y => y.fourcc = x.fourcc) c.chunks x := by
  obtain hdxil | ⟨-, hildb⟩ := (programPart?_eq_some_iff c).1 h
  · have hcode := hdxil.holds
    rwa [hcode]
  · have hcode := hildb.holds
    rwa [hcode]

end Container

namespace Report

/-! ## In a report -/

/-- The numbers in a report are bounded by each other: the chunks with their headers fit
behind the table, the declared size is inside the file, and the bitcode with the header of
its program fits the first chunk that has the code of the part. -/
structure Bounded (r : Report) : Prop where
  length_le : ∀ c, r.container = some c → c.chunks.length ≤ 4096
  sizeBytes_le : ∀ c, r.container = some c → ∀ x ∈ c.chunks,
    40 + 4 * c.chunks.length + x.sizeBytes ≤ c.totalSize
  totalSize_le : ∀ c, r.container = some c → c.totalSize ≤ r.sizeBytes
  bitcodeBytes_le : ∀ p, r.program = some p → ∃ c x, r.container = some c ∧
    c.chunks.find? (fun y => y.fourcc = p.part) = some x ∧ p.bitcodeBytes + 24 ≤ x.sizeBytes

/-- The report on a chunk. -/
def ofChunk (x : Chunk) : ChunkReport :=
  ⟨x.fourcc.text, x.data.size⟩

theorem chunks_ofContainer (c : Container) : (ofContainer c).chunks = c.chunks.map ofChunk :=
  (c.map_chunks fun code size => (⟨code.text, size⟩ : ChunkReport)).symm

/-- The chunk with the program is found again by the text of its code. -/
theorem find?_chunks_of_programPart? {c : Container} {x : Chunk} (h : c.programPart? = some x) :
    (ofContainer c).chunks.find? (fun y => y.fourcc = x.fourcc.text) = some (ofChunk x) := by
  obtain ⟨before, after, hsplit, hx, hbefore⟩ := Container.isFirst_of_programPart? h
  rw [chunks_ofContainer, List.find?_eq_some_iff_append]
  refine ⟨by simp [ofChunk], before.map ofChunk, after.map ofChunk, ?_, ?_⟩
  · rw [hsplit, List.map_append, List.map_cons]
  · intro y hy
    obtain ⟨z, hz, rfl⟩ := List.mem_map.1 hy
    simpa [ofChunk, FourCC.text_inj] using hbefore z hz

section Inspect

variable {input : String} {b : Bytes} {loader : Loader}

theorem container_inspect :
    (inspect input b loader).value.container = (contentsOf b).value.1 := rfl

theorem program_inspect : (inspect input b loader).value.program = (contentsOf b).value.2 := rfl

theorem container_inspect_of_ok {c : Container} (h : Container.parse b = .ok c) :
    (inspect input b loader).value.container = some (ofContainer c) := by
  rw [container_inspect, contentsOf_of_ok h]

theorem program_inspect_of_ok {c : Container} (h : Container.parse b = .ok c) :
    (inspect input b loader).value.program = (programOf c).value := by
  rw [program_inspect, contentsOf_of_ok h]

end Inspect

theorem bounded_of_error {input : String} {b : Bytes} {loader : Loader} {e : FormatError}
    (h : Container.parse b = .error e) : Bounded (inspect input b loader).value := by
  constructor <;> simp [container_inspect, program_inspect, contentsOf_of_error h]

open Container (WellFormed declared PayloadAt BitcodeAt)

section Containers

variable {b : Bytes} (hb : WellFormed b)

include hb

theorem length_chunks_ofContainer : (ofContainer (declared b)).chunks.length = b.chunkCount := by
  rw [chunks_ofContainer, List.length_map, hb.length_chunks]

theorem sizeBytes_le {x : ChunkReport} (hx : x ∈ (ofContainer (declared b)).chunks) :
    40 + 4 * (ofContainer (declared b)).chunks.length + x.sizeBytes ≤
      (ofContainer (declared b)).totalSize := by
  have htotal : (ofContainer (declared b)).totalSize = b.totalSize := rfl
  rw [length_chunks_ofContainer hb, htotal]
  rw [chunks_ofContainer] at hx
  obtain ⟨y, hy, rfl⟩ := List.mem_map.1 hx
  obtain ⟨i, hi⟩ := List.mem_iff_getElem?.1 hy
  have hpayload := hb.payloadAt hi
  have hsize : (ofChunk y).sizeBytes = (b.word (b.offsetAt i + 4)).toNat := hpayload.size_eq
  have hstart := hpayload.start_le
  have hstop := hpayload.stop_le
  omega

/-- The chunk with the program lies at some place of the table, so its bitcode is bounded. -/
theorem bitcodeBytes_le {p : ProgramReport} (hp : (programOf (declared b)).value = some p) :
    ∃ x, (ofContainer (declared b)).chunks.find? (fun y => y.fourcc = p.part) = some x ∧
      p.bitcodeBytes + 24 ≤ x.sizeBytes := by
  cases hpart : (declared b).programPart? with
  | none =>
    rw [programOf_of_none hpart] at hp
    cases hp
  | some x =>
    cases hparse : Program.parse x.data with
    | error e =>
      rw [programOf_of_error hpart hparse] at hp
      cases hp
    | ok program =>
      rw [programOf_of_ok hpart hparse] at hp
      obtain rfl := Option.some.inj hp
      refine ⟨ofChunk x, find?_chunks_of_programPart? hpart, ?_⟩
      obtain ⟨i, hi, -⟩ := (Container.isFirst_of_programPart? hpart).exists_getElem?
      have hpayload := hb.payloadAt hi
      have hbitcode := hpayload.bitcodeAt hparse
      have hsize : (ofChunk x).sizeBytes = (b.word (b.offsetAt i + 4)).toNat := hpayload.size_eq
      have hbytes : (ofProgram x.fourcc program).bitcodeBytes =
          (b.word (b.offsetAt i + 28)).toNat := hbitcode.size_eq
      have hstart := hbitcode.start_le
      have hstop := hbitcode.stop_le
      have hprogram := hbitcode.program_le
      omega

theorem bounded_of_wellFormed (input : String) (loader : Loader) :
    Bounded (inspect input b loader).value := by
  have hcontainer : (inspect input b loader).value.container = some (ofContainer (declared b)) :=
    container_inspect_of_ok hb.parse_eq_ok
  have hprogram : (inspect input b loader).value.program = (programOf (declared b)).value :=
    program_inspect_of_ok hb.parse_eq_ok
  constructor
  · intro c hc
    obtain rfl := Option.some.inj (hcontainer.symm.trans hc)
    rw [length_chunks_ofContainer hb]
    exact hb.chunkCount_le
  · intro c hc x hx
    obtain rfl := Option.some.inj (hcontainer.symm.trans hc)
    exact sizeBytes_le hb hx
  · intro c hc
    obtain rfl := Option.some.inj (hcontainer.symm.trans hc)
    exact hb.totalSize_le
  · intro p hp
    obtain ⟨x, hx, hle⟩ := bitcodeBytes_le hb (hprogram.symm.trans hp)
    exact ⟨_, x, hcontainer, hx, hle⟩

end Containers

/-- Everything that is handed out of a file is a range of it and lies in what it was taken
from: each payload behind the table and inside the declared size, and the bitcode of the
program part behind the header of its program and inside the program, which is inside the
part.  So the numbers of every report are bounded by each other. -/
theorem nested_containment :
    (∀ b c, Container.parse b = .ok c →
      b.totalSize ≤ b.size ∧ c.chunks.length = b.chunkCount ∧
        (∀ i x, c.chunks[i]? = some x → PayloadAt b (b.offsetAt i) x) ∧
        ∀ x, c.programPart? = some x →
          ∃ i, c.chunks[i]? = some x ∧
            (∀ (j : Nat) (y : Chunk), j < i → c.chunks[j]? = some y → y.fourcc ≠ x.fourcc) ∧
            ∀ p, Program.parse x.data = .ok p → BitcodeAt b (b.offsetAt i) p) ∧
      ∀ input b loader, Bounded (inspect input b loader).value := by
  refine ⟨?_, ?_⟩
  · intro b c hparse
    have hb := Container.wellFormed_of_parse hparse
    obtain rfl := Container.eq_declared_of_parse hparse
    refine ⟨hb.totalSize_le, hb.length_chunks, fun i x => hb.payloadAt, ?_⟩
    intro x hpart
    obtain ⟨i, hi, hbefore⟩ := (Container.isFirst_of_programPart? hpart).exists_getElem?
    exact ⟨i, hi, hbefore, fun p => (hb.payloadAt hi).bitcodeAt⟩
  · intro input b loader
    cases hparse : Container.parse b with
    | error e => exact bounded_of_error hparse
    | ok c => exact bounded_of_wellFormed (Container.wellFormed_of_parse hparse) input loader

end Report

end ShaderIntake
