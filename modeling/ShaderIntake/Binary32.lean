/-!
# Single-precision numbers

A `Binary32` is an IEEE 754 single-precision number by its bit pattern.  The
arithmetic is exact integer arithmetic with one rounding:

* without its sign bit a pattern is a natural number, the *magnitude*;
  magnitudes are ordered as the absolute values they stand for, the infinity
  comes right after the largest finite one, and NaNs come after it;
* `units` is the absolute value of a finite number in units of `2 ^ (-149)`,
  the smallest positive number, so that it is a natural number too;
* `nearest n d` is the magnitude nearest to `n / d` units, ties going to the
  even one.  Every result of the module is rounded here.

All NaNs are treated as one: an operation gives `nan` and never looks at a
payload.
-/

namespace ShaderIntake

/-- A single-precision number, by its bit pattern. -/
structure Binary32 where
  bits : UInt32
deriving DecidableEq

namespace Binary32

/-! ## Patterns -/

/-- What the sign bit counts for in a pattern. -/
def signWeight : Nat := 0x80000000

/-- The number of magnitudes from one power of two up to the next. -/
def binadeSize : Nat := 0x800000

/-- The number of units in the number one. -/
def unitsPerOne : Nat := Nat.pow 2 149

/-- The sign bit. -/
def negative (x : Binary32) : Bool :=
  decide (signWeight ≤ x.bits.toNat)

/-- The pattern without its sign bit. -/
def magnitude (x : Binary32) : Nat :=
  x.bits.toNat % signWeight

/-- The magnitude of the infinities. -/
def infinite : Nat := 0x7f800000

def isNaN (x : Binary32) : Bool :=
  decide (infinite < x.magnitude)

def isInfinite (x : Binary32) : Bool :=
  decide (x.magnitude = infinite)

def isZero (x : Binary32) : Bool :=
  decide (x.magnitude = 0)

/-- The number with a sign and a magnitude below `signWeight`. -/
def ofMagnitude (negative : Bool) (m : Nat) : Binary32 :=
  ⟨UInt32.ofNat (if negative then signWeight + m else m)⟩

/-- Positive zero. -/
def zero : Binary32 := ⟨0⟩

/-- The NaN that operations give. -/
def nan : Binary32 := ⟨0x7fc00000⟩

/-- The number with the other sign bit. -/
def neg (x : Binary32) : Binary32 :=
  ofMagnitude (!x.negative) x.magnitude

/-! ## Values -/

/-- The absolute value that a finite magnitude stands for, in units of `2 ^ (-149)`. -/
def units (m : Nat) : Nat :=
  if m < binadeSize then m
  else (binadeSize + m % binadeSize) * Nat.pow 2 (m / binadeSize - 1)

/-- The value of a finite number in units of `2 ^ (-149)`. -/
def signedUnits (x : Binary32) : Int :=
  if x.negative then -(units x.magnitude : Int) else units x.magnitude

/-- The integer nearest to `n / d`, of two the even one. -/
def roundHalfEven (n d : Nat) : Nat :=
  let q := n / d
  let r := n % d
  if 2 * r < d ∨ (2 * r = d ∧ q % 2 = 0) then q else q + 1

/-- The magnitude nearest to `n / d` units, of two the even one.  A finite
magnitude has at most 24 significant bits, so a value of `24 + q` bits is rounded
at `2 ^ q` units; what rounds past the largest finite number is infinite. -/
def nearest (n d : Nat) : Nat :=
  let q := (n / d).log2 - 23
  min infinite (roundHalfEven n (d * Nat.pow 2 q) + q * binadeSize)

/-! ## Arithmetic -/

/-- The product, rounded once. -/
def mul (x y : Binary32) : Binary32 :=
  let negative := x.negative != y.negative
  if x.isNaN || y.isNaN then nan
  else if x.isInfinite || y.isInfinite then
    if x.isZero || y.isZero then nan else ofMagnitude negative infinite
  else ofMagnitude negative (nearest (units x.magnitude * units y.magnitude) unitsPerOne)

/-- The sum, rounded once.  An exact zero is negative only as the sum of two
negative zeros. -/
def add (x y : Binary32) : Binary32 :=
  if x.isNaN || y.isNaN then nan
  else if x.isInfinite then
    if y.isInfinite && x.negative != y.negative then nan else x
  else if y.isInfinite then y
  else
    let sum := x.signedUnits + y.signedUnits
    if sum = 0 then ofMagnitude (x.negative && y.negative) 0
    else ofMagnitude (decide (sum < 0)) (nearest sum.natAbs 1)

/-- `x * y + z`, rounded after the product and again after the sum. -/
def mulAdd (x y z : Binary32) : Binary32 :=
  (x.mul y).add z

/-- Equality of numbers: a NaN equals nothing, and the two zeros are equal. -/
def numericEq (x y : Binary32) : Bool :=
  !x.isNaN && !y.isNaN && (decide (x = y) || (x.isZero && y.isZero))

end Binary32

end ShaderIntake
