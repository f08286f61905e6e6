import ShaderIntake.Proofs.Container.Inspected
import ShaderIntake.Proofs.Container.Locality
import ShaderIntake.Proofs.Loader.Diagnosis
import ShaderIntake.Proofs.Program.Locality

/-!
# Bytes that no diagnosis depends on

A loader that does not ask for the checksum looks at the inspected bytes of a container
and at no others (`Container.Inspected`).  So two blobs with the same inspected bytes get
the same refusal, with the same text and the same events (`tryLoad_of_sameInspected`).
The payloads and the gaps are not inspected, nor is any bitcode.

A blob that is no container has no inspected bytes to speak of, but the checksum and the
word behind it do not count there either (`tryLoad_of_sameReadBytes`).
-/

namespace ShaderIntake.Loader

open Container (WellFormed declared SameInspected SameReadBytes)

variable {b b' : Bytes}

/-- A part is refused for its header. -/
theorem diagnosePart_congr {part part' : Bytes} (h : Program.SameHeader part part') :
    diagnosePart part' = diagnosePart part := by
  rw [diagnosePart, Program.parse_eq_check, h.check_eq, diagnosePart, Program.parse_eq_check]
  cases Program.check part with
  | error e => rfl
  | ok =>
    simp only [ok_bind, h.version_declared, h.size_bitcode_declared]

/-- The refusal of a container in terms of where its chunks lie. -/
theorem diagnoseContainer_eq (c : Container) :
    diagnoseContainer c =
      match c.programExtent? with
      | some x => diagnosePart (x.read c.bytes).data
      | none =>
        match c.extents.find? fun x => x.fourcc.isTokenStream with
        | some x => ⟨.tokenStream x.fourcc, []⟩
        | none => ⟨.missingProgram, []⟩ := by
  rw [diagnoseContainer, Container.programPart?_eq_map, Container.tokenStream?,
    Container.firstWhere]
  cases c.programExtent? with
  | some x => rfl
  | none =>
    cases c.extents.find? fun x => x.fourcc.isTokenStream with
    | some x => rfl
    | none => rfl

/-- The header of the program is inspected. -/
theorem sameHeader_of_programExtent? (h : SameInspected b b') (hb : WellFormed b)
    {x : ChunkExtent} (hx : (declared b).programExtent? = some x) :
    Program.SameHeader (x.read (declared b).bytes).data (x.read (declared b').bytes).data := by
  have hb' := h.sameDirectory.wellFormed hb
  have hmem := Container.mem_extents_of_programExtent? hx
  have hmem' : x ∈ (declared b').extents := by
    rw [h.sameDirectory.extents_declared hb]
    exact hmem
  constructor
  · rw [Container.size_read_of_mem_extents hmem', Container.size_read_of_mem_extents hmem]
  · intro i hi
    rw [Container.size_read_of_mem_extents hmem, Nat.lt_min] at hi
    rw [hb'.byteAt_read hmem' hi.2, hb.byteAt_read hmem hi.2]
    exact h.byteAt_eq _ (.programHeader hx (by omega) (by omega))

theorem diagnoseContainer_of_sameInspected (h : SameInspected b b') (hb : WellFormed b) :
    diagnoseContainer (declared b') = diagnoseContainer (declared b) := by
  rw [diagnoseContainer_eq, diagnoseContainer_eq, h.programExtent?_declared hb,
    h.sameDirectory.extents_declared hb]
  cases hx : (declared b).programExtent? with
  | some x => exact diagnosePart_congr (sameHeader_of_programExtent? h hb hx)
  | none => rfl

/-! ## Same refusals -/

/-- Without the check of the checksum only the size and the result of reading count. -/
theorem tryLoad_congr (hsize : b'.size = b.size)
    (hparse : (∃ e, Container.parse b' = .error e ∧ Container.parse b = .error e) ∨
      ∃ c' c, Container.parse b' = .ok c' ∧ Container.parse b = .ok c ∧
        diagnoseContainer c' = diagnoseContainer c) (max : Nat) :
    tryLoad ⟨max, false⟩ b' = tryLoad ⟨max, false⟩ b := by
  have hdiagnose : diagnose ⟨max, false⟩ b' = diagnose ⟨max, false⟩ b := by
    apply diagnoseWith_congr hsize rfl
    intro _
    simp only [diagnoseChecked_plain]
    exact hparse
  rw [tryLoad_eq, hdiagnose, hsize, tryLoad_eq]

theorem tryLoad_of_sameInspected (h : SameInspected b b') (hb : WellFormed b) (max : Nat) :
    tryLoad ⟨max, false⟩ b' = tryLoad ⟨max, false⟩ b := by
  have hb' := h.sameDirectory.wellFormed hb
  exact tryLoad_congr h.size_eq (.inr ⟨_, _, hb'.parse_eq_ok, hb.parse_eq_ok,
    diagnoseContainer_of_sameInspected h hb⟩) max

/-- Nothing between the code and the sizes is inspected: the chunks lie behind the table. -/
theorem sameInspected_of_sameReadBytes (h : SameReadBytes b b') (hb : WellFormed b) :
    SameInspected b b' where
  size_eq := h.size_eq
  byteAt_eq := by
    intro p hp
    apply h.byteAt_eq
    have hend : b.tableEnd = 32 + 4 * b.chunkCount := rfl
    cases hp with
    | magic hstop => exact .inl hstop
    | sizes hstart _ => exact .inr hstart
    | table hstart _ => exact .inr (by omega)
    | chunkHeader hi hstart _ =>
      have hchunk := (hb.chunkFits _ hi).start_le
      exact .inr (by omega)
    | programHeader hx hstart _ =>
      have hchunk := hb.start_le_of_mem_extents (Container.mem_extents_of_programExtent? hx)
      exact .inr (by omega)

theorem tryLoad_of_sameReadBytes (h : SameReadBytes b b') (max : Nat) :
    tryLoad ⟨max, false⟩ b' = tryLoad ⟨max, false⟩ b := by
  cases hparse : Container.parse b with
  | error e => exact tryLoad_congr h.size_eq (.inl ⟨e, h.parse_eq_error hparse, hparse⟩) max
  | ok c =>
    have hb := Container.wellFormed_of_parse hparse
    exact tryLoad_of_sameInspected (sameInspected_of_sameReadBytes h hb) hb max

/-- What is not inspected does not count.  A byte string with the inspected bytes of a
container is a container with the same sizes, the same codes and the same summary, and a
loader without the check of the checksum does the same on both.  On any blob such a
loader passes over the checksum and the word behind it. -/
theorem diagnosis_depends_on_inspected (b : Bytes) :
    (∀ c, Container.parse b = .ok c → ∀ b' : Bytes, b'.size = b.size →
        (∀ p, Container.Inspected b p → b'.byteAt p = b.byteAt p) →
        ∃ c', Container.parse b' = .ok c' ∧
          c'.header.totalSize = c.header.totalSize ∧
          c'.header.chunkCount = c.header.chunkCount ∧
          c'.chunks.map (fun x => (x.fourcc, x.data.size)) =
            c.chunks.map (fun x => (x.fourcc, x.data.size)) ∧
          c'.summary = c.summary ∧
          ∀ max, tryLoad ⟨max, false⟩ b' = tryLoad ⟨max, false⟩ b) ∧
      ∀ b' : Bytes, b'.size = b.size → (∀ p, p < 4 ∨ 24 ≤ p → b'.byteAt p = b.byteAt p) →
        ∀ max, tryLoad ⟨max, false⟩ b' = tryLoad ⟨max, false⟩ b := by
  constructor
  · intro c hc b' hsize hbyte
    have hb := Container.wellFormed_of_parse hc
    obtain rfl := Container.eq_declared_of_parse hc
    have h : SameInspected b b' := ⟨hsize, hbyte⟩
    have hsame := h.sameDirectory
    have hb' := hsame.wellFormed hb
    refine ⟨declared b', hb'.parse_eq_ok, hsame.totalSize_eq, hsame.chunkCount_eq, ?_,
      hsame.summary_declared hb, tryLoad_of_sameInspected h hb⟩
    rw [Container.map_chunks _ Prod.mk, Container.map_chunks _ Prod.mk, hsame.extents_declared hb]
  · intro b' hsize hbyte
    exact tryLoad_of_sameReadBytes ⟨hsize, hbyte⟩

end ShaderIntake.Loader
