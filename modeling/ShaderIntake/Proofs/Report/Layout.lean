import ShaderIntake.Proofs.Container.RoundTrip
import ShaderIntake.Proofs.Loader.Signing
import ShaderIntake.Proofs.Report.Containment

/-!
# Layouts of one list of chunks

A container says where its chunks lie, and it may put them anywhere behind its table: with
gaps, in any order, over each other.  None of this shows.  Two containers with the same
chunks are refused for the same reason and are reported with the same chunks and the same
program (`SameFindings`), because what is looked for behind the checksum is looked for in
the list of chunks.

Building lays a list of chunks out in one way, so building from the chunks of a container
gives the container its plain layout (`wellFormed_rebuilt`).
-/

namespace ShaderIntake.Report

open Container (WellFormed declared laidOut builtSize)

/-! ## Same findings -/

/-- Loaders without the check of the checksum refuse the two containers for the same reason
when the limit admits both, and every report on the one lists the chunks and the program
that every report on the other lists. -/
structure SameFindings (b b' : Bytes) : Prop where
  tryLoad_eq : ∀ max, b.size ≤ max → b'.size ≤ max →
    (Loader.tryLoad ⟨max, false⟩ b').value = (Loader.tryLoad ⟨max, false⟩ b).value
  chunks_eq : ∀ input input' loader loader', ∃ r r',
    (inspect input b loader).value.container = some r ∧
      (inspect input' b' loader').value.container = some r' ∧ r'.chunks = r.chunks
  program_eq : ∀ input input' loader loader',
    (inspect input' b' loader').value.program = (inspect input b loader).value.program

section Congruences

variable {c c' : Container} (h : c'.chunks = c.chunks)

include h

/-- The list of chunks in a report is made from the codes and the sizes of the chunks. -/
theorem chunks_ofContainer_congr : (ofContainer c').chunks = (ofContainer c).chunks := by
  rw [chunks_ofContainer, chunks_ofContainer, h]

theorem programOf_congr : programOf c' = programOf c := by
  rw [programOf, Container.programPart?_congr h, programOf]

end Congruences

section Containers

variable {b b' : Bytes}

theorem sameFindings_of_chunks_eq (hb : WellFormed b) (hb' : WellFormed b')
    (h : (declared b').chunks = (declared b).chunks) : SameFindings b b' where
  tryLoad_eq := by
    intro max hmax hmax'
    rw [Loader.tryLoad_of_wellFormed hb hmax, Loader.tryLoad_of_wellFormed hb' hmax',
      Loader.diagnoseContainer_congr h]
  chunks_eq := by
    intro input input' loader loader'
    exact ⟨ofContainer (declared b), ofContainer (declared b'),
      container_inspect_of_ok hb.parse_eq_ok, container_inspect_of_ok hb'.parse_eq_ok,
      chunks_ofContainer_congr h⟩
  program_eq := by
    intro input input' loader loader'
    rw [program_inspect_of_ok hb.parse_eq_ok, program_inspect_of_ok hb'.parse_eq_ok,
      programOf_congr h]

/-! ## The plain layout -/

/-- What is built from the chunks of a container is a container with these chunks. -/
theorem wellFormed_rebuilt (hb : WellFormed b)
    (hbuild : Container.build (declared b).chunks = .ok b') :
    WellFormed b' ∧ (declared b').chunks = (declared b).chunks := by
  obtain ⟨hfits, rfl⟩ := Container.build_eq_ok_iff.1 hbuild
  have hlength : (declared b).chunks.length ≤ 4096 := by
    rw [hb.length_chunks]
    exact hb.chunkCount_le
  have hwhole : laidOut (declared b).chunks = laidOut (declared b).chunks ++ ByteArray.empty :=
    ByteArray.append_empty.symm
  exact ⟨Container.wellFormed_laidOut hwhole hfits hlength,
    Container.chunks_laidOut hwhole hfits hlength⟩

end Containers

/-- What is found in a container depends on its chunks and not on how they are laid out.
In particular the chunks of a container can be built anew, exactly if the size of what is
built fits a word; nothing else is found in it then, and building once more gives the same
bytes. -/
theorem findings_depend_on_chunks {b b' : Bytes} {c c' : Container}
    (h : Container.parse b = .ok c) (h' : Container.parse b' = .ok c')
    (hchunks : c'.chunks = c.chunks) :
    SameFindings b b' ∧
      ((∃ rebuilt, Container.build c.chunks = .ok rebuilt) ↔
        builtSize c.chunks < UInt32.size) ∧
      ∀ rebuilt, Container.build c.chunks = .ok rebuilt →
        SameFindings b rebuilt ∧
          ∃ again, Container.parse rebuilt = .ok again ∧ again.chunks = c.chunks ∧
            Container.build again.chunks = .ok rebuilt := by
  have hb := Container.wellFormed_of_parse h
  have hb' := Container.wellFormed_of_parse h'
  obtain rfl := Container.eq_declared_of_parse h
  obtain rfl := Container.eq_declared_of_parse h'
  refine ⟨sameFindings_of_chunks_eq hb hb' hchunks, ?_, ?_⟩
  · constructor
    · rintro ⟨rebuilt, hbuild⟩
      exact (Container.build_eq_ok_iff.1 hbuild).1
    · intro hfits
      exact ⟨_, Container.build_eq_ok_iff.2 ⟨hfits, rfl⟩⟩
  · intro rebuilt hbuild
    obtain ⟨hrebuilt, hsame⟩ := wellFormed_rebuilt hb hbuild
    refine ⟨sameFindings_of_chunks_eq hb hrebuilt hsame, declared rebuilt,
      hrebuilt.parse_eq_ok, hsame, ?_⟩
    rw [hsame, hbuild]

/-- The chunks of `Container.nestedChunks` in the plain layout: `ILDB` from 40 to 60 and
`DXIL` from 60 to 72, each with its own payload. -/
def flatChunks : Bytes :=
  ⟨#[0x44, 0x58, 0x42, 0x43, 0, 0, 0, 0, 0, 0, 0, 0, 0, 0, 0, 0, 0, 0, 0, 0, 1, 0, 0, 0,
    72, 0, 0, 0, 2, 0, 0, 0, 40, 0, 0, 0, 60, 0, 0, 0, 0x49, 0x4c, 0x44, 0x42, 12, 0, 0, 0,
    0x44, 0x58, 0x49, 0x4c, 4, 0, 0, 0, 1, 2, 3, 4, 0x44, 0x58, 0x49, 0x4c, 4, 0, 0, 0,
    1, 2, 3, 4]⟩

theorem flatChunks_wellFormed : WellFormed flatChunks := by decide

theorem findings_depend_on_chunks_nested :
    Container.parse Container.nestedChunks = .ok (declared Container.nestedChunks) ∧
      Container.parse flatChunks = .ok (declared flatChunks) ∧
      (declared flatChunks).chunks = (declared Container.nestedChunks).chunks ∧
      SameFindings Container.nestedChunks flatChunks := by
  have hnested := Container.nestedChunks_wellFormed.parse_eq_ok
  have hflat := flatChunks_wellFormed.parse_eq_ok
  have hchunks : (declared flatChunks).chunks = (declared Container.nestedChunks).chunks := by
    have hflatTable : flatChunks.tableChunks =
        [⟨.ildb, ⟨#[0x44, 0x58, 0x49, 0x4c, 4, 0, 0, 0, 1, 2, 3, 4]⟩⟩,
          ⟨.dxil, ⟨#[1, 2, 3, 4]⟩⟩] := by rfl
    have hnestedTable : Container.nestedChunks.tableChunks =
        [⟨.ildb, ⟨#[0x44, 0x58, 0x49, 0x4c, 4, 0, 0, 0, 1, 2, 3, 4]⟩⟩,
          ⟨.dxil, ⟨#[1, 2, 3, 4]⟩⟩] := by rfl
    rw [flatChunks_wellFormed.chunks_declared, Container.nestedChunks_wellFormed.chunks_declared,
      hflatTable, hnestedTable]
  exact ⟨hnested, hflat, hchunks, (findings_depend_on_chunks hnested hflat hchunks).1⟩

end ShaderIntake.Report
