import ShaderIntake.Program
import ShaderIntake.Proofs.Faulting.Steps
import ShaderIntake.Proofs.Program.Grammar

/-!
# Reading a program without a fault

The reader of programs with the steps that can fault: the range behind the version, and
the range of the bitcode.  `parseProgram_eq_refuse` says that neither does, on any bytes,
so that the reader gives the same answer as `Program.parse`.
-/

namespace ShaderIntake.Faulting

/-- The program at the start of a part, or the first check that fails. -/
def parseProgram (part : Bytes) : Except Stop Program := do
  require (programHeaderSize ≤ part.size) (.refused (.programTruncated part.size))
  let version ← readWord part 0
  let sizeInWords ← readWord part 4
  let fromMagic ← range part programMagicPosition part.size
  let magic ← demand (FourCC.ofBytes? fromMagic) (.refused .programMagicUnreadable)
  require (magic = .dxil) (.refused (.badProgramMagic magic))
  let dxilVersion ← readWord part 12
  let bitcodeOffset ← readWord part 16
  let bitcodeSize ← readWord part 20
  let size ← demand (Size.mul? sizeInWords.toNat 4) (.refused (.programSizeOverflow sizeInWords))
  require (programHeaderSize ≤ size) (.refused (.programSizeTooSmall size))
  require (size ≤ part.size) (.refused (.programPastEnd size part.size))
  let start ← demand (Size.add? programMagicPosition bitcodeOffset.toNat)
    (.refused .bitcodeOffsetOverflow)
  let stop ← demand (Size.add? start bitcodeSize.toNat) (.refused .bitcodeSizeOverflow)
  require (programHeaderSize ≤ start) (.refused (.bitcodeOverHeader bitcodeOffset.toNat))
  require (stop ≤ size) (.refused (.bitcodePastEnd start stop size))
  let bitcode ← range part start stop
  return ⟨.ofWord version, sizeInWords, dxilVersion, bitcode⟩

/-- The bitcode stops where the program does at the latest, and the program where the
part does. -/
theorem parseProgram_eq_refuse (part : Bytes) :
    parseProgram part = refuse (Program.parse part) := by
  simp only [parseProgram, Program.parse, refuse_bind, refuse_demand, refuse_require,
    readWord_eq_refuse]
  apply require_bind_congr
  intro hsize
  have hword := Program.readWord_header part hsize
  have hmagic := Program.inRange_magic part hsize
  rw [hword 0 (by omega), hword 4 (by omega), hword 12 (by omega), hword 16 (by omega),
    hword 20 (by omega)]
  simp only [refuse_ok, ok_bind]
  rw [range_eq_ok hmagic, liftM_ok, ok_bind, Bytes.readRange_eq_ok hmagic, refuse_ok, ok_bind]
  apply demand_bind_congr
  intro magic _
  apply require_bind_congr
  intro _
  apply demand_bind_congr
  intro size _
  apply require_bind_congr
  intro _
  apply require_bind_congr
  intro hprogram
  apply demand_bind_congr
  intro start _
  apply demand_bind_congr
  intro stop hstop
  apply require_bind_congr
  intro _
  apply require_bind_congr
  intro hinside
  have hbitcode : part.InRange start stop := by
    have hsum := Size.eq_of_add?_eq_some hstop
    exact ⟨by omega, by omega⟩
  rw [range_eq_ok hbitcode, liftM_ok, ok_bind, Bytes.readRange_eq_ok hbitcode, refuse_ok, ok_bind]
  rfl

end ShaderIntake.Faulting
