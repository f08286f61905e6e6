import ShaderIntake.Program

/-!
# Refusals

A `Refusal` is the reason why a blob is not loaded.  A refusal is *malformed* when
the bytes themselves are at fault, which they are not when a well-formed blob holds
something that cannot be loaded.
-/

namespace ShaderIntake

/-- Why a blob is not loaded. -/
inductive Refusal where
  /-- The blob has no bytes. -/
  | empty
  /-- The blob is longer than the limit. -/
  | tooLarge (size limit : Nat)
  /-- The blob is not a container. -/
  | container (e : FormatError)
  /-- The stored checksum is not the structural one. -/
  | structuralMd5Mismatch
  /-- The container holds a token stream in place of a program. -/
  | tokenStream (fourcc : FourCC)
  /-- The container holds no program part. -/
  | missingProgram
  /-- The program part does not hold a program. -/
  | program (e : FormatError)
  /-- The program is well formed and cannot be lowered. -/
  | unsupported (version : ProgramVersion)
deriving DecidableEq

namespace Refusal

def message : Refusal → String
  | empty => "shader blob is empty"
  | tooLarge size limit => s!"shader blob length {size} exceeds maximum {limit} bytes"
  | container e => "dxbc error: " ++ e.message
  | structuralMd5Mismatch =>
    "DXBC checksum is not the structural MD5 of the container (checksum field zeroed)"
  | tokenStream fourcc => s!"DXBC container holds {fourcc.text} SM4/SM5 bytecode, not DXIL"
  | missingProgram => "DXBC container has no DXIL part (expected DXIL or ILDB)"
  | program e => "malformed DXIL program: " ++ e.message
  | unsupported version =>
    s!"lowering {version.stage.text} shader model {version.model.text} DXIL to AIR "
      ++ "is not implemented"

/-- The bytes themselves are at fault. -/
def isMalformed : Refusal → Bool
  | container _ | program _ => true
  | _ => false

/-- The error that led to the refusal, for those that pass one on. -/
def cause? : Refusal → Option FormatError
  | container e => some e
  | _ => none

end Refusal

end ShaderIntake
