import ShaderIntake.Proofs.Binary32.Order
import ShaderIntake.Proofs.Decimal.Value

/-!
# Reading decimals

`Decimal.magnitude` reads a decimal as the magnitude nearest to its value
(`Decimal.roundsTo_magnitude`), so it depends on the value alone, and larger values are not
read as smaller magnitudes (`Decimal.magnitude_mono`).  What lies between two decimals that
are read as one magnitude is read as that magnitude too.

A finite magnitude is read back from its own value, and from every decimal that is close
enough to it (`Decimal.magnitude_eq_of_close`): the values beside a value of 24 bits differ
from it by at least its part in `2 ^ 24` (`units_succ_gap`), and half of that is enough.
-/

namespace ShaderIntake

/-! ## Neighbours -/

namespace Binary32

/-- The step from a magnitude to the next one is at least a part in `2 ^ 24` of the larger
value. -/
theorem units_succ_gap (m : ℕ) : units (m + 1) + 2 ^ 24 * units m ≤ 2 ^ 24 * units (m + 1) := by
  obtain ⟨k, q, rfl, hk, hq⟩ := exists_eq_add_mul m
  have hnext : k + q * binadeSize + 1 = k + 1 + q * binadeSize := by omega
  rw [hnext, units_add_mul (k := k) (by omega) hq, units_add_mul (by omega) (by omega)]
  calc (k + 1) * 2 ^ q + 2 ^ 24 * (k * 2 ^ q) ≤ 2 ^ 24 * 2 ^ q + 2 ^ 24 * (k * 2 ^ q) := by
        apply Nat.add_le_add_right
        exact Nat.mul_le_mul_right _ (by omega)
    _ = 2 ^ 24 * ((k + 1) * 2 ^ q) := by ring

/-- The value of another magnitude is at least that far away. -/
theorem units_le_mul_dist {m m' : ℕ} (hne : m' ≠ m) :
    (units m : ℚ) ≤ 2 ^ 24 * |(units m' : ℚ) - units m| := by
  have hgap (j : ℕ) : (units (j + 1) : ℚ) + 2 ^ 24 * units j ≤ 2 ^ 24 * units (j + 1) := by
    exact_mod_cast units_succ_gap j
  obtain hlt | hgt := Nat.lt_or_gt_of_ne hne
  · obtain ⟨j, rfl⟩ : ∃ j, m = j + 1 := ⟨m - 1, by omega⟩
    have hle : (units m' : ℚ) ≤ units j :=
      Nat.cast_le.2 (units_strictMono.monotone (Nat.le_of_lt_succ hlt))
    have hdist := neg_le_abs ((units m' : ℚ) - units (j + 1))
    have hj := hgap j
    linarith
  · have hle : (units (m + 1) : ℚ) ≤ units m' :=
      Nat.cast_le.2 (units_strictMono.monotone hgt)
    have hlt : (units m : ℚ) < units (m + 1) := Nat.cast_lt.2 (units_lt_units_succ m)
    have hdist := le_abs_self ((units m' : ℚ) - units m)
    have hm := hgap m
    linarith

/-- A number of units that is within a part in `2 ^ 25` of a value rounds to it. -/
theorem nearest_eq_of_close {n d m : ℕ} (hd : 0 < d) (hm : m < infinite)
    (hclose : 2 ^ 25 * |(units m : ℚ) - n / d| < units m) : nearest n d = m := by
  have hrounded : rounded n d + shift n d * binadeSize = m := by
    by_contra hne
    have hfar := units_le_mul_dist hne
    have hnear := dist_rounded_le n hd m
    have htriangle :=
      abs_sub_le (units (rounded n d + shift n d * binadeSize) : ℚ) (n / d) (units m)
    rw [abs_sub_comm (n / d : ℚ)] at htriangle
    linarith
  rw [nearest_eq, hrounded, Nat.min_eq_right hm.le]

end Binary32

/-! ## Reading -/

namespace Decimal

open Binary32

theorem magnitude_le_infinite (x : Decimal) : x.magnitude ≤ infinite :=
  Nat.min_le_left _ _

theorem magnitude_lt_signWeight (x : Decimal) : x.magnitude < signWeight :=
  nearest_lt_signWeight _ _

/-- The value in units, as `magnitude` rounds it. -/
theorem value_eq_div (x : Decimal) :
    x.value = ((x.digits * Nat.pow 10 x.exponent.toNat * unitsPerOne : ℕ) : ℚ) /
      (Nat.pow 10 (-x.exponent).toNat : ℕ) / 2 ^ 149 := by
  have hunit : (2 : ℚ) ^ 149 ≠ 0 := by positivity
  rw [value, ten_zpow_eq, unitsPerOne, nat_pow_two, eq_div_iff hunit]
  push_cast
  ring

/-- A decimal is read as its value, rounded, and stands for either sign. -/
theorem roundsTo_magnitude (x : Decimal) {q : ℚ} (hq : |q| = x.value) {negative : Bool}
    (hsign : q ≠ 0 → (negative = true ↔ q < 0)) :
    RoundsTo q (ofMagnitude negative x.magnitude) := by
  rw [value_eq_div] at hq
  exact roundsTo_ofMagnitude (Nat.pow_pos (by omega)) hq hsign

/-- What is read does not depend on how the value is written. -/
theorem magnitude_eq_of_roundsTo (x : Decimal) {q : ℚ} (hq : |q| = x.value) {y : Binary32}
    (hy : RoundsTo q y) : y.magnitude = x.magnitude := by
  have hx : RoundsTo q (ofMagnitude (decide (q < 0)) x.magnitude) :=
    x.roundsTo_magnitude hq fun _ => decide_eq_true_iff
  rw [hy.magnitude_eq hx, magnitude_ofMagnitude x.magnitude_lt_signWeight]

theorem roundsTo_value (x : Decimal) : RoundsTo x.value (ofMagnitude false x.magnitude) :=
  x.roundsTo_magnitude (abs_of_nonneg x.value_nonneg) fun _ => by simpa using x.value_nonneg

theorem magnitude_eq_zero {x : Decimal} (h : x.digits = 0) : x.magnitude = 0 := by
  have hzero := x.roundsTo_value
  rw [value_eq_zero_iff.2 h] at hzero
  rw [← magnitude_ofMagnitude x.magnitude_lt_signWeight, hzero.magnitude_eq_zero]

theorem magnitude_mono {x y : Decimal} (h : x.value ≤ y.value) : x.magnitude ≤ y.magnitude := by
  have hmagnitude (z : Decimal) : (ofMagnitude false z.magnitude).magnitude = z.magnitude :=
    magnitude_ofMagnitude z.magnitude_lt_signWeight
  have hvalue (z : Decimal) :
      (ofMagnitude false z.magnitude).value = (ofMagnitude false z.magnitude).absValue := by
    rw [Binary32.value, negative_ofMagnitude z.magnitude_lt_signWeight,
      if_neg Bool.false_ne_true]
  cases x.roundsTo_value.lessEq y.roundsTo_value h with
  | negInfinity _ hsign _ =>
    rw [negative_ofMagnitude x.magnitude_lt_signWeight] at hsign
    cases hsign
  | posInfinity _ hinf _ =>
    rw [← hmagnitude y, of_decide_eq_true hinf]
    exact x.magnitude_le_infinite
  | finite _ _ hle =>
    rw [hvalue, hvalue, ← not_lt, absValue_lt_iff, hmagnitude, hmagnitude, not_lt] at hle
    exact hle

theorem magnitude_congr {x y : Decimal} (h : x.value = y.value) : x.magnitude = y.magnitude :=
  le_antisymm (magnitude_mono h.le) (magnitude_mono h.ge)

/-- What lies between two decimals that are read as one magnitude is read as it too. -/
theorem magnitude_eq_of_between {x y z : Decimal} {m : ℕ} (hx : x.magnitude = m)
    (hz : z.magnitude = m) (hxy : x.value ≤ y.value) (hyz : y.value ≤ z.value) :
    y.magnitude = m :=
  le_antisymm (hz ▸ magnitude_mono hyz) (hx ▸ magnitude_mono hxy)

theorem value_exact (m : ℕ) : (exact m).value = units m / 2 ^ 149 := by
  have hpow : (5 : ℚ) ^ 149 * 10 ^ (-149 : ℤ) = 1 / 2 ^ 149 := by norm_num
  have hcast : ((units m * Nat.pow 5 149 : ℕ) : ℚ) = units m * 5 ^ 149 := by
    rw [Nat.pow_eq, Nat.cast_mul, Nat.cast_pow, Nat.cast_ofNat]
  rw [value, exact, hcast, mul_assoc, hpow, mul_one_div]

theorem value_exact_pos {m : ℕ} (hpos : 0 < m) : 0 < (exact m).value := by
  have hunits : 0 < units m := units_strictMono.le_apply.trans_lt' hpos
  rw [value_exact]
  positivity

/-- A decimal that differs from the value of a finite magnitude by less than its part in
`2 ^ 25` is read as that magnitude. -/
theorem magnitude_eq_of_close (x : Decimal) {m : ℕ} (hm : m < infinite)
    (hclose : 2 ^ 25 * |(exact m).value - x.value| < (exact m).value) : x.magnitude = m := by
  have hunit : (0 : ℚ) < 2 ^ 149 := by positivity
  rw [value_exact, value_eq_div, ← sub_div, abs_div, abs_of_pos hunit, ← mul_div_assoc,
    div_lt_div_iff_of_pos_right hunit] at hclose
  exact nearest_eq_of_close (Nat.pow_pos (by omega)) hm hclose

/-- A magnitude that is not zero is read back from its own value. -/
theorem magnitude_exact {m : ℕ} (hpos : 0 < m) (hm : m < infinite) :
    (exact m).magnitude = m := by
  apply magnitude_eq_of_close _ hm
  rw [sub_self, abs_zero, mul_zero]
  exact value_exact_pos hpos

end Decimal

end ShaderIntake
