import ShaderIntake.Proofs.Program.Grammar

/-!
# The fault of a program that is reported

A part can fail to hold a program in many ways at once.  `FirstFault` says on the bytes
alone which error is reported, and `parse_eq_error_iff` that it is that one.  Each rule
repeats what must not be wrong before it, so the rules exclude each other.

The group of an error is coarser.  `RunsOver` says when a program is out of bounds: its
declared size leaves the part, or its bitcode leaves the declared size.  Every other fault
is one of the part itself (`FirstFault.kind_cases`).
-/

namespace ShaderIntake.Program

/-! ## Faults -/

/-- The first thing that is wrong with `part`. -/
inductive FirstFault (part : Bytes) : FormatError → Prop where
  | truncated (hsize : part.size < 24) : FirstFault part (.programTruncated part.size)
  | badMagic (hsize : 24 ≤ part.size) (hmagic : FourCC.readAt part 8 ≠ .dxil) :
      FirstFault part (.badProgramMagic (FourCC.readAt part 8))
  | sizeTooSmall (hsize : 24 ≤ part.size) (hmagic : FourCC.readAt part 8 = .dxil)
      (hheader : part.programSize < 24) :
      FirstFault part (.programSizeTooSmall part.programSize)
  | pastEnd (hsize : 24 ≤ part.size) (hmagic : FourCC.readAt part 8 = .dxil)
      (hheader : 24 ≤ part.programSize) (hprogram : part.size < part.programSize) :
      FirstFault part (.programPastEnd part.programSize part.size)
  | bitcodeOverHeader (hsize : 24 ≤ part.size) (hmagic : FourCC.readAt part 8 = .dxil)
      (hheader : 24 ≤ part.programSize) (hprogram : part.programSize ≤ part.size)
      (hstart : part.bitcodeStart < 24) :
      FirstFault part (.bitcodeOverHeader (part.word 16).toNat)
  | bitcodePastEnd (hsize : 24 ≤ part.size) (hmagic : FourCC.readAt part 8 = .dxil)
      (hheader : 24 ≤ part.programSize) (hprogram : part.programSize ≤ part.size)
      (hstart : 24 ≤ part.bitcodeStart) (hstop : part.programSize < part.bitcodeStop) :
      FirstFault part (.bitcodePastEnd part.bitcodeStart part.bitcodeStop part.programSize)

/-- A program with a sound header whose declared size leaves the part, or whose bitcode
starts behind the header and leaves the declared size. -/
structure RunsOver (part : Bytes) : Prop where
  header_le : 24 ≤ part.size
  magic : FourCC.readAt part 8 = .dxil
  le_programSize : 24 ≤ part.programSize
  outside : part.size < part.programSize ∨
    (part.programSize ≤ part.size ∧ 24 ≤ part.bitcodeStart ∧
      part.programSize < part.bitcodeStop)

section

variable {part : Bytes} {e : FormatError}

/-- The first fault is reported, and nothing else is. -/
theorem parse_eq_error_iff : parse part = .error e ↔ FirstFault part e := by
  rw [parse_eq]
  simp only [require_bind_eq_error, Nat.not_le, pure, Except.pure, reduceCtorEq, and_false,
    or_false]
  constructor
  · intro h
    obtain ⟨hsize, rfl⟩ | ⟨hsize, ⟨hmagic, rfl⟩ | ⟨hmagic, ⟨hheader, rfl⟩ | ⟨hheader,
      ⟨hprogram, rfl⟩ | ⟨hprogram, ⟨hstart, rfl⟩ | ⟨hstart, hstop, rfl⟩⟩⟩⟩⟩ := h
    · exact .truncated hsize
    · exact .badMagic hsize hmagic
    · exact .sizeTooSmall hsize hmagic hheader
    · exact .pastEnd hsize hmagic hheader hprogram
    · exact .bitcodeOverHeader hsize hmagic hheader hprogram hstart
    · exact .bitcodePastEnd hsize hmagic hheader hprogram hstart hstop
  · intro h
    cases h with
    | truncated hsize => exact .inl ⟨hsize, rfl⟩
    | badMagic hsize hmagic => exact .inr ⟨hsize, .inl ⟨hmagic, rfl⟩⟩
    | sizeTooSmall hsize hmagic hheader =>
      exact .inr ⟨hsize, .inr ⟨hmagic, .inl ⟨hheader, rfl⟩⟩⟩
    | pastEnd hsize hmagic hheader hprogram =>
      exact .inr ⟨hsize, .inr ⟨hmagic, .inr ⟨hheader, .inl ⟨hprogram, rfl⟩⟩⟩⟩
    | bitcodeOverHeader hsize hmagic hheader hprogram hstart =>
      exact .inr ⟨hsize, .inr ⟨hmagic, .inr ⟨hheader, .inr ⟨hprogram, .inl ⟨hstart, rfl⟩⟩⟩⟩⟩
    | bitcodePastEnd hsize hmagic hheader hprogram hstart hstop =>
      exact .inr ⟨hsize, .inr ⟨hmagic, .inr ⟨hheader, .inr ⟨hprogram, .inr ⟨hstart, hstop,
        rfl⟩⟩⟩⟩⟩

/-- A program that runs over is out of bounds; with any other fault the part is none. -/
theorem FirstFault.kind_cases (h : FirstFault part e) :
    (e.kind = .outOfBounds ∧ RunsOver part) ∨ (e.kind = .invalidChunk ∧ ¬RunsOver part) := by
  cases h with
  | truncated hsize => exact .inr ⟨rfl, fun h => Nat.not_le.2 hsize h.header_le⟩
  | badMagic _ hmagic => exact .inr ⟨rfl, fun h => hmagic h.magic⟩
  | sizeTooSmall _ _ hheader => exact .inr ⟨rfl, fun h => Nat.not_le.2 hheader h.le_programSize⟩
  | pastEnd hsize hmagic hheader hprogram =>
    exact .inl ⟨rfl, hsize, hmagic, hheader, .inl hprogram⟩
  | bitcodeOverHeader _ _ _ hprogram hstart =>
    refine .inr ⟨rfl, fun h => ?_⟩
    have houtside := h.outside
    omega
  | bitcodePastEnd hsize hmagic hheader hprogram hstart hstop =>
    exact .inl ⟨rfl, hsize, hmagic, hheader, .inr ⟨hprogram, hstart, hstop⟩⟩

end

/-- Reading accepts exactly the well-formed parts and takes their fields from the words and
the bitcode from its range.  A part that is refused is out of bounds exactly if its program
runs over, and is otherwise not what its code says; the groups of the container never
appear. -/
theorem parse_accepts_exactly_programs (part : Bytes) :
    ((∃ p, parse part = .ok p) ↔ WellFormed part) ∧
      (∀ p, parse part = .ok p →
        p.version = .ofWord (part.word 0) ∧ p.sizeInWords = part.word 4 ∧
          p.dxilVersion = part.word 12 ∧
          p.bitcode = part.extract part.bitcodeStart part.bitcodeStop) ∧
      ∀ e, parse part = .error e →
        (e.kind = .outOfBounds ↔ RunsOver part) ∧ (e.kind = .invalidChunk ↔ ¬RunsOver part) ∧
          e.kind ≠ .malformedHeader ∧ e.kind ≠ .malformedOffsets := by
  refine ⟨⟨?_, ?_⟩, ?_, ?_⟩
  · intro h
    obtain ⟨p, hp⟩ := h
    exact ((parse_eq_ok_iff part).1 hp).1
  · intro hpart
    exact ⟨declared part, (parse_eq_ok_iff part).2 ⟨hpart, rfl⟩⟩
  · intro p hp
    rw [eq_declared_of_parse hp]
    exact ⟨rfl, rfl, rfl, rfl⟩
  · intro e he
    obtain ⟨hkind, hover⟩ | ⟨hkind, hover⟩ := (parse_eq_error_iff.1 he).kind_cases
    · simp [hkind, hover]
    · simp [hkind, hover]

end ShaderIntake.Program
