import ShaderIntake.Proofs.Container.BuildSigned
import ShaderIntake.Proofs.Loader.Signing
import ShaderIntake.Proofs.Program.RoundTrip

/-!
# Built shaders are recognized

A loader that admits a container sees the program that was built into its program part,
whatever chunks surround the part: `Recognizes` says what it answers and which program it
has seen.

* `recognizes_of_admits` is about any container with a built part.
* `recognizes_built_program` is the main statement, for containers with any chunks and for
  the container that a compiler writes.
-/

namespace ShaderIntake

/-! ## Recognizing a program -/

namespace Loader

open Container (WellFormed declared laidOut builtSize checksumMatches_sign chunks_sign)

/-- The loader refuses `b` for a program with this version and this bitcode, which it has
found and read. -/
structure Recognizes (loader : Loader) (b : Bytes) (version : UInt32) (bitcode : Bytes) :
    Prop where
  tryLoad : loader.tryLoad b = ⟨.error (.unsupported (.ofWord version)),
    [.programFound (.ofWord version) bitcode.size,
      .loadRefused (.unsupported (.ofWord version)) b.size]⟩
  program : ∃ c x p, Container.parse b = .ok c ∧ c.programPart? = some x ∧
    Program.parse x.data = .ok p ∧ p.version = .ofWord version ∧ p.bitcode = bitcode

variable {b : Bytes} {version : UInt32} {bitcode : Bytes} {chunks : List Chunk} {x : Chunk}

/-- What surrounds the program part does not count. -/
theorem recognizes_of_admits {loader : Loader} (h : Admits loader b)
    (hpart : IsProgramPart (declared b).chunks x)
    (hbuild : Program.build version bitcode = .ok x.data) :
    Recognizes loader b version bitcode := by
  obtain ⟨hfits, hdata⟩ := Program.build_eq_ok_iff.1 hbuild
  obtain ⟨p, hparse, hversion, hbitcode⟩ := Program.parse_laidOut version hfits
  rw [← hdata] at hparse
  have hfound := (Container.programPart?_eq_some_iff _).2 hpart
  have hdiagnose : loader.diagnose b = ⟨.unsupported (.ofWord version),
      [.programFound (.ofWord version) bitcode.size]⟩ := by
    rw [diagnose_of_admits h, diagnoseContainer_of_some hfound, diagnosePart_of_ok hparse, hbitcode,
      hdata, Program.version_laidOut]
  constructor
  · rw [tryLoad_eq, hdiagnose]
    rfl
  · exact ⟨declared b, x, p, h.wellFormed.parse_eq_ok, hfound, hparse, hversion, hbitcode⟩

section LaidOut

variable (hfits : builtSize chunks < UInt32.size) (hlength : chunks.length ≤ 4096)
  (hpart : IsProgramPart chunks x) (hbuild : Program.build version bitcode = .ok x.data)

include hfits hlength hpart hbuild

theorem recognizes_laidOut {max : Nat} (hmax : (laidOut chunks).size ≤ max) :
    Recognizes ⟨max, false⟩ (laidOut chunks) version bitcode := by
  have hwhole : laidOut chunks = laidOut chunks ++ ByteArray.empty := ByteArray.append_empty.symm
  have hb := Container.wellFormed_laidOut hwhole hfits hlength
  have hheader := hb.header_le
  have hadmits : Admits ⟨max, false⟩ (laidOut chunks) := ⟨⟨by omega, hmax⟩, hb, by simp⟩
  rw [← Container.chunks_laidOut hwhole hfits hlength] at hpart
  exact recognizes_of_admits hadmits hpart hbuild

theorem recognizes_sign_laidOut {max : Nat} (hmax : (laidOut chunks).size ≤ max) :
    Recognizes ⟨max, true⟩ (sign (laidOut chunks)) version bitcode := by
  have hwhole : laidOut chunks = laidOut chunks ++ ByteArray.empty := ByteArray.append_empty.symm
  have hb := Container.wellFormed_laidOut hwhole hfits hlength
  have hsigned := Container.wellFormed_sign hb
  have hheader := hsigned.header_le
  have hmatches := (Container.checksumMatches_declared hsigned).1 (checksumMatches_sign hb)
  have hadmits : Admits ⟨max, true⟩ (sign (laidOut chunks)) :=
    ⟨⟨by omega, by rw [Container.size_sign]; exact hmax⟩, hsigned, fun _ => hmatches⟩
  rw [← Container.chunks_laidOut hwhole hfits hlength, ← chunks_sign hb] at hpart
  exact recognizes_of_admits hadmits hpart hbuild

end LaidOut

/-! ## The container that a compiler writes -/

theorem isProgramPart_head (part : Bytes) (rest : List Chunk) :
    IsProgramPart (⟨.dxil, part⟩ :: rest) ⟨.dxil, part⟩ :=
  .inl ⟨[], rest, rfl, rfl, by simp⟩

theorem buildContainer_eq_ok_iff :
    Program.buildContainer version bitcode = .ok b ↔
      ∃ part, Program.build version bitcode = .ok part ∧
        Container.build [⟨.dxil, part⟩, ⟨.hash, Bytes.zeros 20⟩] = .ok b := by
  rw [Program.buildContainer, bind_eq_ok]

/-- A hundred bytes go to headers, the table and the hash. -/
theorem builtSize_buildContainer {part : Bytes} (h : Program.build version bitcode = .ok part) :
    builtSize [⟨.dxil, part⟩, ⟨.hash, Bytes.zeros 20⟩] = 100 + (bitcode.size + 3) / 4 * 4 := by
  have hsize := Program.size_laidOut version bitcode
  rw [← (Program.build_eq_ok_iff.1 h).2, Program.bitcodeWords] at hsize
  simp only [builtSize, Container.chunksSize, headerSize, chunkHeaderSize, Bytes.size_zeros, hsize,
    List.length_cons, List.length_nil]
  omega

/-- The program part of a container that was built is recognized, with its version and its
bitcode, in any surroundings: other chunks before and behind it, token streams, further
parts that hold no program.  A plain loader recognizes it in the container, a strict one in
the signed container.  A compiler's container is built whenever its size fits a word, and
its program is recognized. -/
theorem recognizes_built_program (version : UInt32) (bitcode : Bytes) :
    (∀ (chunks : List Chunk) (x : Chunk), chunks.length ≤ 4096 →
        builtSize chunks < UInt32.size → IsProgramPart chunks x →
        Program.build version bitcode = .ok x.data →
        ∃ b signed, Container.build chunks = .ok b ∧ Container.buildSigned chunks = .ok signed ∧
          (∀ max, b.size ≤ max → Recognizes ⟨max, false⟩ b version bitcode) ∧
          ∀ max, signed.size ≤ max → Recognizes ⟨max, true⟩ signed version bitcode) ∧
      ((∃ b, Program.buildContainer version bitcode = .ok b) ↔
        100 + (bitcode.size + 3) / 4 * 4 < UInt32.size) ∧
      ∀ b, Program.buildContainer version bitcode = .ok b → ∀ max, b.size ≤ max →
        Recognizes ⟨max, false⟩ b version bitcode ∧
          Recognizes ⟨max, true⟩ (sign b) version bitcode := by
  refine ⟨?_, ?_, ?_⟩
  · intro chunks x hlength hfits hpart hbuild
    refine ⟨laidOut chunks, sign (laidOut chunks), Container.build_eq_ok_iff.2 ⟨hfits, rfl⟩,
      Container.buildSigned_eq_ok hfits hlength, ?_, ?_⟩
    · intro max hmax
      exact recognizes_laidOut hfits hlength hpart hbuild hmax
    · intro max hmax
      rw [Container.size_sign] at hmax
      exact recognizes_sign_laidOut hfits hlength hpart hbuild hmax
  · constructor
    · intro h
      obtain ⟨b, hb⟩ := h
      obtain ⟨part, hpart, hcontainer⟩ := buildContainer_eq_ok_iff.1 hb
      rw [← builtSize_buildContainer hpart]
      exact (Container.build_eq_ok_iff.1 hcontainer).1
    · intro hfits
      have hbitcode : bitcode.size < UInt32.size := by omega
      have hpart := Program.build_eq_ok_iff.2 ⟨hbitcode, Eq.refl (Program.laidOut version bitcode)⟩
      rw [← builtSize_buildContainer hpart] at hfits
      exact ⟨_, buildContainer_eq_ok_iff.2
        ⟨_, hpart, Container.build_eq_ok_iff.2 ⟨hfits, rfl⟩⟩⟩
  · intro b hb max hmax
    obtain ⟨part, hpart, hcontainer⟩ := buildContainer_eq_ok_iff.1 hb
    obtain ⟨hfits, rfl⟩ := Container.build_eq_ok_iff.1 hcontainer
    have hhead := isProgramPart_head part [⟨.hash, Bytes.zeros 20⟩]
    exact ⟨recognizes_laidOut hfits (by simp) hhead hpart hmax,
      recognizes_sign_laidOut hfits (by simp) hhead hpart hmax⟩

end Loader

end ShaderIntake
