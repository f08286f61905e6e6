import ShaderIntake.Binary32

/-!
# Decimal text of single-precision numbers

A number is written with the fewest decimal digits that read back to it, and
of those with the digits nearest to it.

* `Decimal` is a decimal number, `Decimal.magnitude` the single-precision
  magnitude it reads as.
* `onGrid? m e` tries the multiples of `10 ^ e` on the two sides of the
  magnitude `m`; when both read back it takes the nearer one, of two equally
  near ones the larger.
* `shortest m` takes the coarsest grid that has a hit.
* `text` writes a number: positional from the number nearest to `1e-4` up to
  but not including the one nearest to `1e16`, with an exponent otherwise.
-/

namespace ShaderIntake

/-- The number `digits * 10 ^ exponent`. -/
structure Decimal where
  digits : Nat
  exponent : Int
deriving DecidableEq

namespace Decimal

/-- The single-precision magnitude nearest to the number. -/
def magnitude (x : Decimal) : Nat :=
  Binary32.nearest (x.digits * Nat.pow 10 x.exponent.toNat * Binary32.unitsPerOne)
    (Nat.pow 10 (-x.exponent).toNat)

/-- The same number with at most `count` zeros at the end of its digits taken off. -/
def dropZeros : Nat → Decimal → Decimal
  | 0, x => x
  | count + 1, x =>
    if x.digits % 10 = 0 then dropZeros count ⟨x.digits / 10, x.exponent + 1⟩ else x

/-- The same number without zeros at the end of its digits. -/
def trim (x : Decimal) : Decimal :=
  x.dropZeros (Nat.toDigits 10 x.digits).length

/-- The number with a point, at least one digit on each side of it. -/
def positional (x : Decimal) : String :=
  let digits := Nat.toDigits 10 x.digits
  let places := (-x.exponent).toNat
  if 0 ≤ x.exponent then
    String.ofList (digits ++ List.replicate x.exponent.toNat '0' ++ ['.', '0'])
  else if places < digits.length then
    let whole := digits.length - places
    String.ofList (digits.take whole ++ '.' :: digits.drop whole)
  else
    String.ofList ('0' :: '.' :: (List.replicate (places - digits.length) '0' ++ digits))

/-- One digit, the others after a point, and the power of ten. -/
def scientific (x : Decimal) : String :=
  let digits := Nat.toDigits 10 x.digits
  let fraction := if digits.length ≤ 1 then [] else '.' :: digits.drop 1
  let power := x.exponent + (digits.length - 1 : Nat)
  String.ofList (digits.take 1 ++ fraction ++ ['e']) ++ toString power

end Decimal

namespace Binary32

/-- The power of ten of the first digit of a positive number of units.  One unit is
above `10 ^ (-45)`, so the integer part of `u * 2 ^ (-149) * 10 ^ 45` has that digit. -/
def leadingPower (u : Nat) : Int :=
  (Nat.toDigits 10 (u * Nat.pow 10 45 / unitsPerOne)).length - 46

/-- The multiple of `10 ^ e` that stands for the magnitude `m`, if one of the two
beside it reads back. -/
def onGrid? (m : Nat) (e : Int) : Option Decimal :=
  let n := units m * Nat.pow 10 (-e).toNat
  let d := unitsPerOne * Nat.pow 10 e.toNat
  let below : Decimal := ⟨n / d, e⟩
  let above : Decimal := ⟨n / d + 1, e⟩
  let belowReads := decide (below.magnitude = m)
  let aboveReads := decide (above.magnitude = m)
  if belowReads && aboveReads then some (if 2 * (n % d) < d then below else above)
  else if belowReads then some below
  else if aboveReads then some above
  else none

/-- The exact value of a finite magnitude in decimal digits. -/
def exact (m : Nat) : Decimal :=
  ⟨units m * Nat.pow 5 149, -149⟩

/-- A decimal with the fewest digits that reads back as the finite magnitude `m`, not
zero.  Nine digits are always enough. -/
def shortest (m : Nat) : Decimal :=
  let power := leadingPower (units m)
  let found := (List.range 9).findSome? fun (n : Nat) => onGrid? m (power - n)
  (found.getD (exact m)).trim

/-- The text of a magnitude that is not NaN. -/
def magnitudeText (m : Nat) : String :=
  if m = infinite then "inf"
  else if m = 0 then "0.0"
  else if (Decimal.mk 1 (-4)).magnitude ≤ m ∧ m < (Decimal.mk 1 16).magnitude then
    (shortest m).positional
  else (shortest m).scientific

/-- The text of a number: its sign, if it is not NaN, and its magnitude. -/
def text (x : Binary32) : String :=
  if x.isNaN then "NaN"
  else (if x.negative then "-" else "") ++ magnitudeText x.magnitude

end Binary32

end ShaderIntake
