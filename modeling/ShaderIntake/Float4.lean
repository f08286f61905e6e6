import ShaderIntake.Binary32.Decimal
import ShaderIntake.Bytes

/-!
# Four lanes

A `Float4` is four single-precision numbers side by side.  `Float4.mulAddLanes` multiplies
and adds lane by lane, with a rounding after each of the two.
-/

namespace ShaderIntake

/-- Four single-precision lanes. -/
structure Float4 where
  x : Binary32
  y : Binary32
  z : Binary32
  w : Binary32
deriving DecidableEq

/-- A lane number past the last lane. -/
structure LaneFault where
  index : Nat
deriving DecidableEq

namespace Float4

/-- The number of lanes. -/
def lanes : Nat := 4

/-- The number `v` in every lane. -/
def splat (v : Binary32) : Float4 := ⟨v, v, v, v⟩

/-- Zero in every lane. -/
def zero : Float4 := splat .zero

/-- The lanes in order. -/
def toList (v : Float4) : List Binary32 := [v.x, v.y, v.z, v.w]

/-- The bit patterns of the lanes in order, lowest byte first. -/
def toBytes (v : Float4) : Bytes :=
  Bytes.concat (v.toList.map fun a => Bytes.ofWord a.bits)

/-- The lane numbered `i`, if there is one. -/
def lane? (v : Float4) (i : Nat) : Option Binary32 := v.toList[i]?

/-- The lane numbered `i`, or the fault of asking for it. -/
def lane (v : Float4) (i : Nat) : Except LaneFault Binary32 :=
  match v.lane? i with
  | some a => .ok a
  | none => .error ⟨i⟩

/-- `f` on each lane of the three. -/
def zipLanes (f : Binary32 → Binary32 → Binary32 → Binary32) (a b c : Float4) : Float4 :=
  ⟨f a.x b.x c.x, f a.y b.y c.y, f a.z b.z c.z, f a.w b.w c.w⟩

/-- `a * b + c` in each lane, rounded after the product and again after the sum. -/
def mulAddLanes (a b c : Float4) : Float4 :=
  zipLanes Binary32.mulAdd a b c

/-- `mulAddLanes` as a method of the first vector. -/
def mulAdd (v a b : Float4) : Float4 :=
  mulAddLanes v a b

/-- Equality of numbers in each lane. -/
def numericEq (a b : Float4) : Bool :=
  a.x.numericEq b.x && a.y.numericEq b.y && a.z.numericEq b.z && a.w.numericEq b.w

/-- The lanes in parentheses. -/
def text (v : Float4) : String :=
  "(" ++ v.x.text ++ ", " ++ v.y.text ++ ", " ++ v.z.text ++ ", " ++ v.w.text ++ ")"

end Float4

def LaneFault.message (f : LaneFault) : String :=
  "index out of bounds: the len is " ++ toString Float4.lanes ++ " but the index is "
    ++ toString f.index

/-! ## Registers -/

/-- One instruction: registers `a`, `b` and `c` multiplied and added into register `d`. -/
structure MulAddStep where
  d : Nat
  a : Nat
  b : Nat
  c : Nat
deriving DecidableEq

/-- The registers after a step; a register that is not there reads as zero and is not written. -/
def MulAddStep.run (s : MulAddStep) (regs : List Float4) : List Float4 :=
  regs.set s.d
    (.mulAddLanes (regs.getD s.a .zero) (regs.getD s.b .zero) (regs.getD s.c .zero))

end ShaderIntake
