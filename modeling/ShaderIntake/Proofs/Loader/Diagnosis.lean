import ShaderIntake.Loader
import ShaderIntake.Proofs.Container.Checksum
import ShaderIntake.Proofs.Container.Chunks
import ShaderIntake.Proofs.Program.Grammar

/-!
# Why a blob is refused

`Reason loader b` holds of the one refusal that a loader gives for a blob.  It is
stated on the bytes of the blob: their number, their grammar as a container, the
stored checksum, the chunks that the offset table lists, and the program in the part
that is chosen among them.  Each rule repeats what must not be wrong before it, so
the rules can be read in any order.

`tryLoad_classifies` is the main statement.  Its two directions are `reason_diagnose`
(what is found is a reason) and `Reason.eq_diagnose` (there is only one reason), and
both go through the equations of `diagnose`, one for each way to end.  Where two diagnoses
are compared, also without the md5 feature, `diagnoseWith_congr` says what they depend on.
-/

namespace ShaderIntake.Loader

open Container (WellFormed declared zeroedDigest)

variable {loader : Loader} {b : Bytes}

/-! ## The equations of the diagnosis -/

/-- The blob is long enough to be looked at, and not too long. -/
structure Fits (loader : Loader) (b : Bytes) : Prop where
  nonempty : b.size ≠ 0
  le_max : b.size ≤ loader.maxBlobBytes

/-- The blob is a container, and its checksum is the structural one if that matters. -/
structure Admits (loader : Loader) (b : Bytes) : Prop where
  fits : Fits loader b
  wellFormed : WellFormed b
  checksum : loader.structuralMd5 = true →
    b.extract 4 20 = zeroedDigest (b.extract 0 b.totalSize)

section Check

variable {check : Container → Logged Bool}

theorem diagnoseWith_of_empty (hsize : b.size = 0) :
    diagnoseWith check loader b = ⟨.empty, []⟩ := by
  rw [diagnoseWith, if_pos hsize]

theorem diagnoseWith_of_lt (hnonempty : b.size ≠ 0) (hlimit : loader.maxBlobBytes < b.size) :
    diagnoseWith check loader b = ⟨.tooLarge b.size loader.maxBlobBytes, []⟩ := by
  rw [diagnoseWith, if_neg hnonempty, if_pos hlimit]

theorem diagnoseWith_of_error {e : FormatError} (hfits : Fits loader b)
    (hparse : Container.parse b = .error e) :
    diagnoseWith check loader b = ⟨.container e, []⟩ := by
  rw [diagnoseWith, if_neg hfits.nonempty, if_neg (Nat.not_lt.2 hfits.le_max), hparse]

theorem diagnoseWith_of_ok {c : Container} (hfits : Fits loader b)
    (hparse : Container.parse b = .ok c) :
    diagnoseWith check loader b = diagnoseChecked check loader c := by
  rw [diagnoseWith, if_neg hfits.nonempty, if_neg (Nat.not_lt.2 hfits.le_max), hparse]

/-- The size, the limit and, for a blob that fits, the result of reading and what is found
behind it decide. -/
theorem diagnoseWith_congr {check' : Container → Logged Bool} {loader' : Loader} {b' : Bytes}
    (hsize : b'.size = b.size) (hmax : loader'.maxBlobBytes = loader.maxBlobBytes)
    (hparse : Fits loader b →
      (∃ e, Container.parse b' = .error e ∧ Container.parse b = .error e) ∨
      ∃ c' c, Container.parse b' = .ok c' ∧ Container.parse b = .ok c ∧
        diagnoseChecked check' loader' c' = diagnoseChecked check loader c) :
    diagnoseWith check' loader' b' = diagnoseWith check loader b := by
  by_cases hempty : b.size = 0
  · rw [diagnoseWith_of_empty hempty, diagnoseWith_of_empty (hsize.trans hempty)]
  have hempty' : b'.size ≠ 0 := hsize ▸ hempty
  by_cases hlimit : loader.maxBlobBytes < b.size
  · have hlimit' : loader'.maxBlobBytes < b'.size := hsize ▸ hmax ▸ hlimit
    rw [diagnoseWith_of_lt hempty hlimit, diagnoseWith_of_lt hempty' hlimit', hsize, hmax]
  have hfits : Fits loader b := ⟨hempty, Nat.not_lt.1 hlimit⟩
  have hfits' : Fits loader' b' := ⟨hempty', hsize ▸ hmax ▸ hfits.le_max⟩
  obtain ⟨e, he', he⟩ | ⟨c', c, hc', hc, hsame⟩ := hparse hfits
  · rw [diagnoseWith_of_error hfits' he', diagnoseWith_of_error hfits he]
  · rw [diagnoseWith_of_ok hfits' hc', diagnoseWith_of_ok hfits hc, hsame]

/-- A plain loader does not look at the checksum. -/
theorem diagnoseChecked_plain {c : Container} (hoff : loader.structuralMd5 = false) :
    diagnoseChecked check loader c = diagnoseContainer c := by
  rw [diagnoseChecked, hoff, if_neg Bool.false_ne_true]

end Check

/-- The structural checksum passes without a word, and any other decides. -/
theorem diagnoseChecked_structuralMd5Ok (loader : Loader) (c : Container) :
    diagnoseChecked structuralMd5Ok loader c =
      if loader.structuralMd5 && !c.checksumMatches then ⟨.structuralMd5Mismatch, []⟩
      else diagnoseContainer c := by
  rw [diagnoseChecked, structuralMd5Ok]
  cases loader.structuralMd5 <;> cases c.checksumMatches <;> rfl

theorem diagnose_of_wellFormed (hfits : Fits loader b) (hb : WellFormed b) :
    loader.diagnose b =
      if loader.structuralMd5 && !(declared b).checksumMatches then
        ⟨.structuralMd5Mismatch, []⟩
      else diagnoseContainer (declared b) := by
  rw [diagnose, diagnoseWith_of_ok hfits hb.parse_eq_ok, diagnoseChecked_structuralMd5Ok]

theorem diagnose_of_mismatch (hfits : Fits loader b) (hb : WellFormed b)
    (hon : loader.structuralMd5 = true)
    (hdiffer : b.extract 4 20 ≠ zeroedDigest (b.extract 0 b.totalSize)) :
    loader.diagnose b = ⟨.structuralMd5Mismatch, []⟩ := by
  have hmatches : (declared b).checksumMatches = false := by
    rw [Bool.eq_false_iff, ne_eq, Container.checksumMatches_declared hb]
    exact hdiffer
  rw [diagnose_of_wellFormed hfits hb, hon, hmatches, Bool.not_false, Bool.and_true,
    if_pos rfl]

theorem diagnose_of_admits (h : Admits loader b) :
    loader.diagnose b = diagnoseContainer (declared b) := by
  rw [diagnose_of_wellFormed h.fits h.wellFormed]
  cases hon : loader.structuralMd5 with
  | false => rw [Bool.false_and, if_neg Bool.false_ne_true]
  | true =>
    rw [(Container.checksumMatches_declared h.wellFormed).2 (h.checksum hon), Bool.not_true,
      Bool.and_false, if_neg Bool.false_ne_true]

theorem tryLoad_eq (loader : Loader) (b : Bytes) :
    loader.tryLoad b = ⟨.error (loader.diagnose b).value,
      (loader.diagnose b).events ++ [.loadRefused (loader.diagnose b).value b.size]⟩ := rfl

/-- A plain loader whose limit admits a container goes on to its chunks. -/
theorem tryLoad_of_wellFormed (hb : WellFormed b) {max : Nat} (hmax : b.size ≤ max) :
    (tryLoad ⟨max, false⟩ b).value = .error (diagnoseContainer (declared b)).value := by
  have hheader := hb.header_le
  have hadmits : Admits ⟨max, false⟩ b := ⟨⟨by omega, hmax⟩, hb, by simp⟩
  rw [tryLoad_eq, diagnose_of_admits hadmits]

theorem diagnoseContainer_of_some {c : Container} {x : Chunk} (h : c.programPart? = some x) :
    diagnoseContainer c = diagnosePart x.data := by
  rw [diagnoseContainer, h]

theorem diagnoseContainer_of_tokenStream {c : Container} {x : Chunk}
    (hpart : c.programPart? = none) (h : c.tokenStream? = some x) :
    diagnoseContainer c = ⟨.tokenStream x.fourcc, []⟩ := by
  rw [diagnoseContainer, hpart]
  simp only [h]

theorem diagnoseContainer_of_none {c : Container} (hpart : c.programPart? = none)
    (h : c.tokenStream? = none) : diagnoseContainer c = ⟨.missingProgram, []⟩ := by
  rw [diagnoseContainer, hpart]
  simp only [h]

theorem diagnosePart_of_error {part : Bytes} {e : FormatError}
    (h : Program.parse part = .error e) : diagnosePart part = ⟨.program e, []⟩ := by
  rw [diagnosePart, h]

theorem diagnosePart_of_ok {part : Bytes} {program : Program}
    (h : Program.parse part = .ok program) :
    diagnosePart part = ⟨.unsupported (.ofWord (part.word 0)),
      [.programFound (.ofWord (part.word 0)) program.bitcode.size]⟩ := by
  have hversion : program.version = .ofWord (part.word 0) := by
    rw [Program.eq_declared_of_parse h, Program.declared]
  rw [diagnosePart, h, ← hversion]

/-- Only the parts of a container have anything to report: a check in front of them that
fails decides without a word. -/
theorem diagnose_cases (loader : Loader) (b : Bytes) :
    (∃ r, (∀ version, r ≠ .unsupported version) ∧ loader.diagnose b = ⟨r, []⟩) ∨
      ∃ c, Container.parse b = .ok c ∧ loader.diagnose b = diagnoseContainer c := by
  by_cases hsize : b.size = 0
  · exact .inl ⟨_, by simp, diagnoseWith_of_empty hsize⟩
  by_cases hlimit : loader.maxBlobBytes < b.size
  · exact .inl ⟨_, by simp, diagnoseWith_of_lt hsize hlimit⟩
  have hfits : Fits loader b := ⟨hsize, Nat.not_lt.1 hlimit⟩
  cases hparse : Container.parse b with
  | error e => exact .inl ⟨_, by simp, diagnoseWith_of_error hfits hparse⟩
  | ok c =>
    have hb := Container.wellFormed_of_parse hparse
    obtain rfl := Container.eq_declared_of_parse hparse
    rw [diagnose_of_wellFormed hfits hb]
    split
    · exact .inl ⟨_, by simp, rfl⟩
    · exact .inr ⟨_, rfl, rfl⟩

/-! ## Reasons -/

/-- The reason why `loader` refuses `b`. -/
inductive Reason (loader : Loader) (b : Bytes) : Refusal → Prop where
  | empty (hsize : b.size = 0) : Reason loader b .empty
  | tooLarge (hnonempty : b.size ≠ 0) (hlimit : loader.maxBlobBytes < b.size) :
      Reason loader b (.tooLarge b.size loader.maxBlobBytes)
  | container {e : FormatError} (hfits : Fits loader b)
      (hparse : Container.parse b = .error e) : Reason loader b (.container e)
  | structuralMd5Mismatch (hfits : Fits loader b) (hb : WellFormed b)
      (hon : loader.structuralMd5 = true)
      (hdiffer : b.extract 4 20 ≠ zeroedDigest (b.extract 0 b.totalSize)) :
      Reason loader b .structuralMd5Mismatch
  | tokenStream {x : Chunk} (hadmits : Admits loader b)
      (hnone : ∀ y ∈ b.tableChunks, y.fourcc ≠ .dxil ∧ y.fourcc ≠ .ildb)
      (hfirst : IsTokenStream b.tableChunks x) : Reason loader b (.tokenStream x.fourcc)
  | missingProgram (hadmits : Admits loader b)
      (hnone : ∀ y ∈ b.tableChunks, y.fourcc ≠ .dxil ∧ y.fourcc ≠ .ildb)
      (hnoStream : ∀ y ∈ b.tableChunks, y.fourcc ≠ .shex ∧ y.fourcc ≠ .shdr) :
      Reason loader b .missingProgram
  | program {x : Chunk} {e : FormatError} (hadmits : Admits loader b)
      (hpart : IsProgramPart b.tableChunks x) (hparse : Program.parse x.data = .error e) :
      Reason loader b (.program e)
  | unsupported {x : Chunk} {program : Program} (hadmits : Admits loader b)
      (hpart : IsProgramPart b.tableChunks x)
      (hparse : Program.parse x.data = .ok program) :
      Reason loader b (.unsupported (.ofWord (x.data.word 0)))

theorem Admits.chunks_eq (h : Admits loader b) : (declared b).chunks = b.tableChunks :=
  h.wellFormed.chunks_declared

theorem reason_of_admits (h : Admits loader b) :
    Reason loader b (diagnoseContainer (declared b)).value := by
  have hchunks := h.chunks_eq
  -- A program part is looked for first, and a token stream only where there is none.
  cases hpart : (declared b).programPart? with
  | some x =>
    have hfirst : IsProgramPart b.tableChunks x := by
      rw [← hchunks, ← Container.programPart?_eq_some_iff]
      exact hpart
    rw [diagnoseContainer_of_some hpart]
    cases hparse : Program.parse x.data with
    | error e =>
      rw [diagnosePart_of_error hparse]
      exact .program h hfirst hparse
    | ok program =>
      rw [diagnosePart_of_ok hparse]
      exact .unsupported h hfirst hparse
  | none =>
    have hnone : ∀ y ∈ b.tableChunks, y.fourcc ≠ .dxil ∧ y.fourcc ≠ .ildb := by
      rw [← hchunks, ← Container.programPart?_eq_none_iff]
      exact hpart
    cases hstream : (declared b).tokenStream? with
    | some x =>
      rw [diagnoseContainer_of_tokenStream hpart hstream]
      apply Reason.tokenStream h hnone
      rw [← hchunks, ← Container.tokenStream?_eq_some_iff]
      exact hstream
    | none =>
      rw [diagnoseContainer_of_none hpart hstream]
      apply Reason.missingProgram h hnone
      rw [← hchunks, ← Container.tokenStream?_eq_none_iff]
      exact hstream

/-- What a loader finds is a reason to refuse the blob. -/
theorem reason_diagnose (loader : Loader) (b : Bytes) :
    Reason loader b (loader.diagnose b).value := by
  by_cases hsize : b.size = 0
  · rw [diagnose, diagnoseWith_of_empty hsize]
    exact .empty hsize
  by_cases hlimit : loader.maxBlobBytes < b.size
  · rw [diagnose, diagnoseWith_of_lt hsize hlimit]
    exact .tooLarge hsize hlimit
  have hfits : Fits loader b := ⟨hsize, Nat.not_lt.1 hlimit⟩
  cases hparse : Container.parse b with
  | error e =>
    rw [diagnose, diagnoseWith_of_error hfits hparse]
    exact .container hfits hparse
  | ok c =>
    have hb := Container.wellFormed_of_parse hparse
    by_cases hchecksum : loader.structuralMd5 = true →
        b.extract 4 20 = zeroedDigest (b.extract 0 b.totalSize)
    · have hadmits : Admits loader b := ⟨hfits, hb, hchecksum⟩
      rw [diagnose_of_admits hadmits]
      exact reason_of_admits hadmits
    · obtain ⟨hon, hdiffer⟩ := Classical.not_imp.1 hchecksum
      rw [diagnose_of_mismatch hfits hb hon hdiffer]
      exact .structuralMd5Mismatch hfits hb hon hdiffer

/-- There is no other reason than the one that is found. -/
theorem Reason.eq_diagnose {r : Refusal} (h : Reason loader b r) :
    (loader.diagnose b).value = r := by
  cases h with
  | empty hsize => rw [diagnose, diagnoseWith_of_empty hsize]
  | tooLarge hnonempty hlimit => rw [diagnose, diagnoseWith_of_lt hnonempty hlimit]
  | container hfits hparse => rw [diagnose, diagnoseWith_of_error hfits hparse]
  | structuralMd5Mismatch hfits hb hon hdiffer =>
    rw [diagnose_of_mismatch hfits hb hon hdiffer]
  | tokenStream hadmits hnone hfirst =>
    rw [← hadmits.chunks_eq] at hnone hfirst
    rw [diagnose_of_admits hadmits, diagnoseContainer_of_tokenStream
      ((Container.programPart?_eq_none_iff _).2 hnone)
      ((Container.tokenStream?_eq_some_iff _).2 hfirst)]
  | missingProgram hadmits hnone hnoStream =>
    rw [← hadmits.chunks_eq] at hnone hnoStream
    rw [diagnose_of_admits hadmits, diagnoseContainer_of_none
      ((Container.programPart?_eq_none_iff _).2 hnone)
      ((Container.tokenStream?_eq_none_iff _).2 hnoStream)]
  | program hadmits hpart hparse =>
    rw [← hadmits.chunks_eq] at hpart
    rw [diagnose_of_admits hadmits,
      diagnoseContainer_of_some ((Container.programPart?_eq_some_iff _).2 hpart),
      diagnosePart_of_error hparse]
  | unsupported hadmits hpart hparse =>
    rw [← hadmits.chunks_eq] at hpart
    rw [diagnose_of_admits hadmits,
      diagnoseContainer_of_some ((Container.programPart?_eq_some_iff _).2 hpart),
      diagnosePart_of_ok hparse]

theorem isMalformed_iff (r : Refusal) :
    r.isMalformed = true ↔ (∃ e, r = .container e) ∨ ∃ e, r = .program e := by
  cases r <;> simp [Refusal.isMalformed]

/-- A loader refuses every blob, for exactly one reason, and the blob is malformed
exactly when its container or its program is. -/
theorem tryLoad_classifies (loader : Loader) (b : Bytes) :
    (∃ r, (loader.tryLoad b).value = .error r) ∧
      (∀ r, (loader.tryLoad b).value = .error r ↔ Reason loader b r) ∧
      ∀ r : Refusal,
        r.isMalformed = true ↔ (∃ e, r = .container e) ∨ ∃ e, r = .program e := by
  have hvalue : (loader.tryLoad b).value = .error (loader.diagnose b).value := rfl
  refine ⟨⟨_, hvalue⟩, ?_, ?_⟩
  · intro r
    rw [hvalue]
    constructor
    · intro h
      rw [← Except.error.inj h]
      exact reason_diagnose loader b
    · intro h
      rw [h.eq_diagnose]
  · exact isMalformed_iff

/-- The part without debug info is chosen although it comes second, and holds too
little for a program. -/
example : (Loader.standard.tryLoad Container.nestedChunks).value =
    .error (.program (.programTruncated 4)) := by rfl

end ShaderIntake.Loader
