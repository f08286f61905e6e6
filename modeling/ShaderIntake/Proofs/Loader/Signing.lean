import ShaderIntake.Proofs.Container.Signing
import ShaderIntake.Proofs.Loader.Diagnosis

/-!
# Strict and plain loaders

A strict loader asks for the structural checksum, a plain one does not.  On a signed blob
the two agree: signing makes the checksum right and leaves the chunks alone, and the
chunks are all that is looked at behind the checksum (`diagnoseContainer_congr`).

Without the md5 feature the two agree on every blob, but for a warning of the strict one
(`tryLoadWith_unchecked`).
-/

namespace ShaderIntake

/-! ## What is found depends on the chunks -/

namespace Container

variable {c c' : Container} (h : c.chunks = c'.chunks)

include h

theorem firstWhere_congr (p : FourCC → Bool) : c.firstWhere p = c'.firstWhere p := by
  rw [firstWhere_eq_find?, firstWhere_eq_find?, h]

theorem programPart?_congr : c.programPart? = c'.programPart? := by
  rw [programPart?, chunk?, chunk?, firstWhere_congr h, firstWhere_congr h]
  rfl

theorem tokenStream?_congr : c.tokenStream? = c'.tokenStream? :=
  firstWhere_congr h FourCC.isTokenStream

end Container

namespace Loader

open Container (WellFormed declared checksumMatches_sign chunks_sign)

variable {b : Bytes} {max : Nat}

theorem diagnoseContainer_congr {c c' : Container} (h : c.chunks = c'.chunks) :
    diagnoseContainer c = diagnoseContainer c' := by
  rw [diagnoseContainer, Container.programPart?_congr h, Container.tokenStream?_congr h,
    diagnoseContainer]

/-! ## Without the md5 feature -/

section Unchecked

variable {loader : Loader}

/-- The loader is asked for the checksum of `b`, and comes as far as it. -/
structure AsksForChecksum (loader : Loader) (b : Bytes) : Prop where
  fits : Fits loader b
  wellFormed : WellFormed b
  asked : loader.structuralMd5 = true

theorem diagnoseChecked_unchecked (hon : loader.structuralMd5 = true) (c : Container) :
    diagnoseChecked structuralMd5Unchecked loader c =
      ⟨(diagnoseContainer c).value, .md5Disabled :: (diagnoseContainer c).events⟩ := by
  rw [diagnoseChecked, if_pos hon]
  rfl

theorem diagnoseWith_unchecked_of_asks (h : AsksForChecksum loader b) :
    diagnoseWith structuralMd5Unchecked loader b =
      ⟨(diagnose ⟨loader.maxBlobBytes, false⟩ b).value,
        .md5Disabled :: (diagnose ⟨loader.maxBlobBytes, false⟩ b).events⟩ := by
  have hadmits : Admits ⟨loader.maxBlobBytes, false⟩ b :=
    ⟨⟨h.fits.nonempty, h.fits.le_max⟩, h.wellFormed, by simp⟩
  rw [diagnose_of_admits hadmits, diagnoseWith_of_ok h.fits h.wellFormed.parse_eq_ok,
    diagnoseChecked_unchecked h.asked]

theorem diagnoseWith_unchecked_of_not_asks (h : ¬AsksForChecksum loader b) :
    diagnoseWith structuralMd5Unchecked loader b = diagnose ⟨loader.maxBlobBytes, false⟩ b := by
  apply diagnoseWith_congr
  case hsize => rfl
  case hmax => rfl
  case hparse =>
    intro hfits
    cases hparse : Container.parse b with
    | error e => exact .inl ⟨e, rfl, rfl⟩
    | ok c =>
      have hb := Container.wellFormed_of_parse hparse
      have hoff : loader.structuralMd5 = false := by
        rw [Bool.eq_false_iff]
        intro hasked
        exact h ⟨⟨hfits.nonempty, hfits.le_max⟩, hb, hasked⟩
      refine .inr ⟨c, c, rfl, rfl, ?_⟩
      rw [diagnoseChecked_plain hoff]
      exact (diagnoseChecked_plain rfl).symm

/-- Without the md5 feature a loader gives for every blob the reason of a plain loader.  What
it reports on the way differs only where a checksum had to be judged: a warning comes first. -/
theorem tryLoadWith_unchecked (loader : Loader) (b : Bytes) :
    let load := tryLoadWith structuralMd5Unchecked loader b
    let plain := tryLoad ⟨loader.maxBlobBytes, false⟩ b
    load.value = plain.value ∧
      (AsksForChecksum loader b → load.events = .md5Disabled :: plain.events) ∧
      (¬AsksForChecksum loader b → load.events = plain.events) := by
  simp only [tryLoad_eq, tryLoadWith]
  by_cases hasks : AsksForChecksum loader b
  · rw [diagnoseWith_unchecked_of_asks hasks]
    exact ⟨rfl, fun _ => rfl, fun h => absurd hasks h⟩
  · rw [diagnoseWith_unchecked_of_not_asks hasks]
    exact ⟨rfl, fun h => absurd h hasks, fun _ => rfl⟩

/-- The strict loader is asked for a checksum that it cannot compute. -/
example : (tryLoadWith structuralMd5Unchecked ⟨defaultMaxBlobBytes, true⟩
    Container.nestedChunks).events.map Event.level = ["WARN", "DEBUG"] := by rfl

end Unchecked

/-! ## Signed blobs -/

/-- The checksum of a signed container passes, and its chunks are those it had before. -/
theorem diagnoseChecked_sign (hb : WellFormed b) :
    diagnoseChecked structuralMd5Ok ⟨max, true⟩ (declared (sign b)) =
      diagnoseChecked structuralMd5Ok ⟨max, false⟩ (declared b) := by
  have hplain : diagnoseChecked structuralMd5Ok ⟨max, false⟩ (declared b) =
      diagnoseContainer (declared b) := diagnoseChecked_plain rfl
  rw [hplain, diagnoseChecked_structuralMd5Ok, checksumMatches_sign hb,
    diagnoseContainer_congr (chunks_sign hb), Bool.not_true, Bool.and_false,
    if_neg Bool.false_ne_true]

/-- A strict loader finds in the signed blob what a plain one finds in the blob. -/
theorem diagnose_sign (max : Nat) (b : Bytes) :
    diagnose ⟨max, true⟩ (sign b) = diagnose ⟨max, false⟩ b := by
  apply diagnoseWith_congr
  case hsize => exact Container.size_sign b
  case hmax => rfl
  case hparse =>
    intro _
    cases hparse : Container.parse b with
    | error e => exact .inl ⟨e, by rw [Container.sign_of_error hparse, hparse], rfl⟩
    | ok c =>
      have hb := Container.wellFormed_of_parse hparse
      obtain rfl := Container.eq_declared_of_parse hparse
      exact .inr ⟨_, _, (Container.wellFormed_sign hb).parse_eq_ok, rfl, diagnoseChecked_sign hb⟩

theorem tryLoad_sign (max : Nat) (b : Bytes) :
    tryLoad ⟨max, true⟩ (sign b) = tryLoad ⟨max, false⟩ b := by
  rw [tryLoad_eq, diagnose_sign, Container.size_sign, tryLoad_eq]

/-! ## Other checksums -/

section Stamp

variable (hb : WellFormed b) {checksum : Bytes} (hsize : checksum.size = 16)
  (hdiffer : checksum ≠ (declared b).structuralMd5)

include hb hsize hdiffer

theorem checksumMatches_stamp_of_ne :
    (declared (b.overwrite 4 checksum)).checksumMatches = false := by
  rw [Bool.eq_false_iff, ne_eq, Container.checksumMatches_stamp hb hsize]
  exact hdiffer.symm

/-- A strict loader refuses a container with any other checksum than the structural one. -/
theorem tryLoad_stamp_of_ne (hmax : b.size ≤ max) :
    (tryLoad ⟨max, true⟩ (b.overwrite 4 checksum)).value = .error .structuralMd5Mismatch := by
  have hheader := hb.header_le
  have hsame := Bytes.size_overwrite (Container.field_le hb hsize)
  have hfits : Fits ⟨max, true⟩ (b.overwrite 4 checksum) := ⟨by omega, hsame ▸ hmax⟩
  rw [tryLoad_eq, diagnose_of_wellFormed hfits (Container.wellFormed_stamp hb hsize),
    checksumMatches_stamp_of_ne hb hsize hdiffer]
  rfl

end Stamp

/-- Signing makes a strict loader agree with a plain one on every blob, in the result and
in what is reported on the way.  Signing twice is signing once.  A signed container has
the chunks, the size and the summary that it had before, and its checksum matches; any
other checksum in its field leaves the chunks and the structural checksum as they are,
but does not match, and a strict loader then refuses the blob for it. -/
theorem sign_reconciles_loaders (b : Bytes) :
    (∀ max, tryLoad ⟨max, true⟩ (sign b) = tryLoad ⟨max, false⟩ b) ∧
      sign (sign b) = sign b ∧
      ∀ c, Container.parse b = .ok c →
        ∃ signed, Container.parse (sign b) = .ok signed ∧
          signed.chunks = c.chunks ∧
          signed.header.totalSize = c.header.totalSize ∧
          signed.header.chunkCount = c.header.chunkCount ∧
          signed.summary = c.summary ∧
          signed.checksumMatches = true ∧
          ∀ checksum : Bytes, checksum.size = 16 → checksum ≠ signed.header.checksum →
            ∃ other, Container.parse ((sign b).overwrite 4 checksum) = .ok other ∧
              other.chunks = c.chunks ∧
              other.structuralMd5 = signed.structuralMd5 ∧
              other.checksumMatches = false ∧
              ∀ max, b.size ≤ max →
                (tryLoad ⟨max, true⟩ ((sign b).overwrite 4 checksum)).value =
                  .error .structuralMd5Mismatch := by
  refine ⟨fun max => tryLoad_sign max b, Container.sign_sign b, ?_⟩
  intro c hc
  have hb := Container.wellFormed_of_parse hc
  obtain rfl := Container.eq_declared_of_parse hc
  have hsame : Container.SameDirectory b (sign b) := by
    rw [hb.sign_eq]
    exact Container.sameDirectory_stamp hb hb.size_structuralMd5
  refine ⟨declared (sign b), (Container.wellFormed_sign hb).parse_eq_ok, chunks_sign hb,
    hsame.totalSize_eq, hsame.chunkCount_eq, hsame.summary_declared hb,
    checksumMatches_sign hb, ?_⟩
  intro checksum hsize hdiffer
  have hstored : (declared (sign b)).header.checksum = (declared b).structuralMd5 := by
    rw [hb.sign_eq, Container.checksum_stamp hb hb.size_structuralMd5]
  rw [hstored] at hdiffer
  rw [hb.overwrite_sign hsize, hb.structuralMd5_sign]
  exact ⟨declared (b.overwrite 4 checksum), (Container.wellFormed_stamp hb hsize).parse_eq_ok,
    Container.chunks_stamp hb hsize, Container.structuralMd5_stamp hb hsize,
    checksumMatches_stamp_of_ne hb hsize hdiffer,
    fun max hmax => tryLoad_stamp_of_ne hb hsize hdiffer hmax⟩

end Loader

end ShaderIntake
