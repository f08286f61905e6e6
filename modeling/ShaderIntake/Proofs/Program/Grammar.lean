import ShaderIntake.Program
import ShaderIntake.Proofs.Bytes

/-!
# The byte strings that are programs

As for containers: `Program.WellFormed` says on the bytes alone when a part holds a
program, `Program.declared` is the program that its words describe, and
`Program.parse_eq_ok_iff` says that reading gives the one exactly on the other.
`Program.parse_eq` leaves only the checks of the reader.
-/

namespace ShaderIntake

namespace Bytes

/-! ## The words of a program -/

/-- The declared size of the program in a part. -/
def programSize (part : Bytes) : Nat :=
  4 * (part.word 4).toNat

/-- Where the bitcode starts, counted from the start of the part. -/
def bitcodeStart (part : Bytes) : Nat :=
  8 + (part.word 16).toNat

/-- Where the bitcode stops. -/
def bitcodeStop (part : Bytes) : Nat :=
  part.bitcodeStart + (part.word 20).toNat

/-! The header decides all three, whatever stands behind it. -/

section Header

variable {part part' : Bytes} (hheader : ∀ i, i < 24 → part'.byteAt i = part.byteAt i)

include hheader

theorem headerWord_congr {p : Nat} (hp : p + 4 ≤ 24) : part'.word p = part.word p := by
  apply word_congr
  intro i hi
  exact hheader (p + i) (by omega)

theorem headerCode_congr : FourCC.readAt part' 8 = FourCC.readAt part 8 := by
  apply FourCC.readAt_congr
  intro i hi
  exact hheader (8 + i) (by omega)

theorem programSize_congr : part'.programSize = part.programSize := by
  rw [programSize, headerWord_congr hheader (by omega), programSize]

theorem bitcodeStart_congr : part'.bitcodeStart = part.bitcodeStart := by
  rw [bitcodeStart, headerWord_congr hheader (by omega), bitcodeStart]

theorem bitcodeStop_congr : part'.bitcodeStop = part.bitcodeStop := by
  rw [bitcodeStop, bitcodeStart_congr hheader, headerWord_congr hheader (by omega), bitcodeStop]

end Header

end Bytes

namespace Program

/-- The part is a program, or starts with one. -/
structure WellFormed (part : Bytes) : Prop where
  header_le : 24 ≤ part.size
  magic : FourCC.readAt part 8 = .dxil
  le_programSize : 24 ≤ part.programSize
  programSize_le : part.programSize ≤ part.size
  le_bitcodeStart : 24 ≤ part.bitcodeStart
  bitcodeStop_le : part.bitcodeStop ≤ part.programSize

/-- The program that the words of a part describe. -/
def declared (part : Bytes) : Program :=
  ⟨.ofWord (part.word 0), part.word 4, part.word 12,
    part.extract part.bitcodeStart part.bitcodeStop⟩

section Parse

variable (part : Bytes)

/-! No product and no sum of the words of a header leaves the sizes. -/

theorem mul?_programSize : Size.mul? (part.word 4).toNat 4 = some part.programSize := by
  have hword := (part.word 4).toNat_lt
  rw [Size.mul?_eq_some, Bytes.programSize, Nat.mul_comm]
  rw [Size.limit]
  omega

theorem add?_bitcodeStart :
    Size.add? programMagicPosition (part.word 16).toNat = some part.bitcodeStart := by
  have hword := (part.word 16).toNat_lt
  rw [Size.add?_eq_some, Bytes.bitcodeStart, programMagicPosition]
  rw [Size.limit, programMagicPosition]
  omega

theorem add?_bitcodeStop :
    Size.add? part.bitcodeStart (part.word 20).toNat = some part.bitcodeStop := by
  have hoffset := (part.word 16).toNat_lt
  have hlength := (part.word 20).toNat_lt
  rw [Size.add?_eq_some, Bytes.bitcodeStop]
  rw [Size.limit, Bytes.bitcodeStart]
  omega

section Header

variable (hsize : 24 ≤ part.size)

include hsize

theorem readWord_header (p : Nat) (hp : p ≤ 20) : part.readWord p = .ok (part.word p) :=
  Bytes.readWord_eq_ok (by omega) (by rw [Size.limit]; omega)

theorem inRange_magic : part.InRange programMagicPosition part.size := by
  rw [programMagicPosition]
  exact ⟨by omega, Nat.le_refl _⟩

/-- The code of a program is read from its place, whatever stands in front of it. -/
theorem ofBytes?_magic :
    FourCC.ofBytes? (part.extract programMagicPosition part.size) =
      some (FourCC.readAt part 8) := by
  have hlong : 4 ≤ ByteArray.size (part.extract programMagicPosition part.size) := by
    rw [Bytes.size_extract_of_le (Nat.le_refl _), programMagicPosition]
    omega
  rw [FourCC.ofBytes?_eq_some hlong, FourCC.readAt_extract, programMagicPosition]
  rw [programMagicPosition]
  omega

end Header

/-- Reading a program, with the reads and sums that cannot fail taken out. -/
theorem parse_eq : parse part = (do
    require (24 ≤ part.size) (.programTruncated part.size)
    require (FourCC.readAt part 8 = .dxil) (.badProgramMagic (FourCC.readAt part 8))
    require (24 ≤ part.programSize) (.programSizeTooSmall part.programSize)
    require (part.programSize ≤ part.size) (.programPastEnd part.programSize part.size)
    require (24 ≤ part.bitcodeStart) (.bitcodeOverHeader (part.word 16).toNat)
    require (part.bitcodeStop ≤ part.programSize)
      (.bitcodePastEnd part.bitcodeStart part.bitcodeStop part.programSize)
    return declared part) := by
  rw [parse, show programHeaderSize = 24 from rfl]
  apply require_bind_congr
  intro hsize
  have hword := readWord_header part hsize
  rw [hword 0 (by omega), ok_bind, hword 4 (by omega), ok_bind,
    Bytes.readRange_eq_ok (inRange_magic part hsize), ok_bind, ofBytes?_magic part hsize,
    demand_some, ok_bind]
  apply require_bind_congr
  intro _
  rw [hword 12 (by omega), ok_bind, hword 16 (by omega), ok_bind, hword 20 (by omega), ok_bind,
    mul?_programSize, demand_some, ok_bind]
  apply require_bind_congr
  intro _
  apply require_bind_congr
  intro hle
  rw [add?_bitcodeStart, demand_some, ok_bind, add?_bitcodeStop, demand_some, ok_bind]
  apply require_bind_congr
  intro _
  apply require_bind_congr
  intro hinside
  have hrange : part.readRange part.bitcodeStart part.bitcodeStop =
      .ok (part.extract part.bitcodeStart part.bitcodeStop) :=
    Bytes.readRange_eq_ok ⟨by rw [Bytes.bitcodeStop]; omega, by omega⟩
  rw [hrange, ok_bind]
  rfl

/-- Reading gives a program exactly on well-formed parts, and it gives the one that
they describe. -/
theorem parse_eq_ok_iff {program : Program} :
    parse part = .ok program ↔ WellFormed part ∧ program = declared part := by
  rw [parse_eq]
  simp only [require_bind_eq_ok]
  constructor
  · intro h
    obtain ⟨hsize, hmagic, hheader, hprogram, hstart, hstop, hdeclared⟩ := h
    exact ⟨⟨hsize, hmagic, hheader, hprogram, hstart, hstop⟩,
      (Except.ok.inj hdeclared).symm⟩
  · intro h
    obtain ⟨hpart, rfl⟩ := h
    exact ⟨hpart.header_le, hpart.magic, hpart.le_programSize, hpart.programSize_le,
      hpart.le_bitcodeStart, hpart.bitcodeStop_le, rfl⟩

variable {part}

theorem eq_declared_of_parse {program : Program} (h : parse part = .ok program) :
    program = declared part :=
  ((parse_eq_ok_iff part).1 h).2

end Parse

end Program

end ShaderIntake
