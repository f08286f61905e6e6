import ShaderIntake.Bytes

/-!
# Four-character codes

A `FourCC` names a container or a chunk.  Any four bytes are a code, so its text
(`FourCC.text`) escapes what is not printable ASCII as `\x` and two hexadecimal
digits.  A backslash is printable and stands for itself.
-/

namespace ShaderIntake

/-- Four bytes that name a container or a chunk. -/
structure FourCC where
  b0 : UInt8
  b1 : UInt8
  b2 : UInt8
  b3 : UInt8
deriving DecidableEq, Inhabited

namespace FourCC

/-- The code spelled by four ASCII characters. -/
def ofChars (a b c d : Char) : FourCC :=
  ⟨a.toUInt8, b.toUInt8, c.toUInt8, d.toUInt8⟩

/-- The container itself. -/
def dxbc : FourCC := ofChars 'D' 'X' 'B' 'C'

/-- A DXIL program. -/
def dxil : FourCC := ofChars 'D' 'X' 'I' 'L'

/-- A DXIL program with debug info. -/
def ildb : FourCC := ofChars 'I' 'L' 'D' 'B'

/-- The name of the file with the debug info. -/
def ildn : FourCC := ofChars 'I' 'L' 'D' 'N'

/-- The hash of the shader. -/
def hash : FourCC := ofChars 'H' 'A' 'S' 'H'

/-- The input signature. -/
def isg1 : FourCC := ofChars 'I' 'S' 'G' '1'

/-- The output signature. -/
def osg1 : FourCC := ofChars 'O' 'S' 'G' '1'

/-- The patch-constant signature. -/
def psg1 : FourCC := ofChars 'P' 'S' 'G' '1'

/-- Pipeline state validation data. -/
def psv0 : FourCC := ofChars 'P' 'S' 'V' '0'

/-- A root signature. -/
def rts0 : FourCC := ofChars 'R' 'T' 'S' '0'

/-- Shader statistics. -/
def stat : FourCC := ofChars 'S' 'T' 'A' 'T'

/-- A shader model 4 token stream. -/
def shdr : FourCC := ofChars 'S' 'H' 'D' 'R'

/-- A shader model 5 token stream. -/
def shex : FourCC := ofChars 'S' 'H' 'E' 'X'

/-- The code at position `p` of `b`. -/
def readAt (b : Bytes) (p : Nat) : FourCC :=
  ⟨b.byteAt p, b.byteAt (p + 1), b.byteAt (p + 2), b.byteAt (p + 3)⟩

/-- The code in the first four bytes, if there are four. -/
def ofBytes? (b : Bytes) : Option FourCC :=
  (b.slice? 0 4).map (readAt · 0)

def toBytes (f : FourCC) : Bytes :=
  ⟨#[f.b0, f.b1, f.b2, f.b3]⟩

/-- The code names a token stream older than DXIL. -/
def isTokenStream (f : FourCC) : Bool :=
  f = shdr ∨ f = shex

/-- Codes are ordered byte by byte from the first. -/
instance : Ord FourCC where
  compare f g :=
    (compare f.b0 g.b0).then <| (compare f.b1 g.b1).then <|
      (compare f.b2 g.b2).then (compare f.b3 g.b3)

/-! ## Text -/

/-- A printable ASCII byte as its character, any other as `\x` and two hexadecimal digits. -/
def byteText (b : UInt8) : List Char :=
  if 0x20 ≤ b.toNat ∧ b.toNat ≤ 0x7e then [Char.ofNat b.toNat]
  else ['\\', 'x', Nat.digitChar (b.toNat / 16), Nat.digitChar (b.toNat % 16)]

def text (f : FourCC) : String :=
  String.ofList (byteText f.b0 ++ byteText f.b1 ++ byteText f.b2 ++ byteText f.b3)

/-- The text in a form that says what it is. -/
def quoted (f : FourCC) : String :=
  "FourCC(\"" ++ f.text ++ "\")"

@[simp] theorem size_toBytes (f : FourCC) : f.toBytes.size = 4 := rfl

@[simp] theorem readAt_toBytes (f : FourCC) : readAt f.toBytes 0 = f := rfl

end FourCC

end ShaderIntake
