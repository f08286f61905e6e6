import ShaderIntake.Container.Build
import ShaderIntake.Program

/-!
# Building programs

`Program.build` writes the payload of a program part: the header, the bitcode,
and zeros up to a whole number of words.  `Program.buildContainer` puts it into a
container with an empty hash part behind it, as a compiler does without debug
info.
-/

namespace ShaderIntake.Program

/-- The part with the program version `version` and `bitcode` right behind the
header.  Its DXIL version is 1 and the minor number of the model. -/
def build (version : UInt32) (bitcode : Bytes) : Except Misfit Bytes := do
  let words := (bitcode.size + 3) / 4
  let size ← fitWord .programSize ((programHeaderSize + words * 4) / 4)
  let bitcodeSize ← fitWord .bitcodeSize bitcode.size
  return Bytes.concat
    [Bytes.ofWord version, Bytes.ofWord size, FourCC.dxil.toBytes,
      Bytes.ofWord (0x100 + version % 0x10), Bytes.ofWord 16, Bytes.ofWord bitcodeSize,
      bitcode, Bytes.zeros (words * 4 - bitcode.size)]

/-- The container with one program part and an empty hash part. -/
def buildContainer (version : UInt32) (bitcode : Bytes) : Except Misfit Bytes := do
  let part ← build version bitcode
  Container.build [⟨.dxil, part⟩, ⟨.hash, Bytes.zeros 20⟩]

end ShaderIntake.Program
