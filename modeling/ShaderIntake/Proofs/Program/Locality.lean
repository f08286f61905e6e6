import ShaderIntake.Proofs.Program.Grammar

/-!
# What reading a program looks at

Reading a program looks at the size of the part and at the 24 bytes of the header,
not at the bitcode.  `check` is the reader without its result, and two parts with
the same size and the same header (`SameHeader`) pass it or fail it together, with
the same error.
-/

namespace ShaderIntake.Program

/-- The checks of the reader, in order. -/
def check (part : Bytes) : Except FormatError Unit := do
  require (24 ≤ part.size) (.programTruncated part.size)
  require (FourCC.readAt part 8 = .dxil) (.badProgramMagic (FourCC.readAt part 8))
  require (24 ≤ part.programSize) (.programSizeTooSmall part.programSize)
  require (part.programSize ≤ part.size) (.programPastEnd part.programSize part.size)
  require (24 ≤ part.bitcodeStart) (.bitcodeOverHeader (part.word 16).toNat)
  require (part.bitcodeStop ≤ part.programSize)
    (.bitcodePastEnd part.bitcodeStart part.bitcodeStop part.programSize)

/-- Reading is checking, and then taking what the words say. -/
theorem parse_eq_check (part : Bytes) :
    parse part = (check part >>= fun _ => .ok (declared part)) := by
  rw [parse_eq, check]
  simp only [bind_assoc]
  rfl

/-- The two parts have the same size and the same header, as far as they have one. -/
structure SameHeader (part part' : Bytes) : Prop where
  size_eq : part'.size = part.size
  byteAt_eq : ∀ i, i < min 24 part.size → part'.byteAt i = part.byteAt i

namespace SameHeader

variable {part part' : Bytes} (h : SameHeader part part')

include h

/-- Past the end there are zeros on both sides. -/
theorem byteAt_eq_of_lt (i : Nat) (hi : i < 24) : part'.byteAt i = part.byteAt i := by
  by_cases hsize : i < part.size
  · exact h.byteAt_eq i (Nat.lt_min.2 ⟨hi, hsize⟩)
  · rw [Bytes.byteAt_of_le (by rw [h.size_eq]; omega), Bytes.byteAt_of_le (by omega)]

theorem check_eq : check part' = check part := by
  rw [check, h.size_eq, Bytes.headerCode_congr h.byteAt_eq_of_lt,
    Bytes.programSize_congr h.byteAt_eq_of_lt, Bytes.bitcodeStart_congr h.byteAt_eq_of_lt,
    Bytes.bitcodeStop_congr h.byteAt_eq_of_lt,
    Bytes.headerWord_congr h.byteAt_eq_of_lt (by omega), check]

theorem version_declared : (declared part').version = (declared part).version := by
  rw [declared, Bytes.headerWord_congr h.byteAt_eq_of_lt (by omega), declared]

theorem size_bitcode_declared :
    (declared part').bitcode.size = (declared part).bitcode.size := by
  rw [declared, ByteArray.size_extract, h.size_eq, Bytes.bitcodeStart_congr h.byteAt_eq_of_lt,
    Bytes.bitcodeStop_congr h.byteAt_eq_of_lt, declared, ByteArray.size_extract]

end SameHeader

end ShaderIntake.Program
