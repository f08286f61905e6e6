import Mathlib.Algebra.Order.Ring.Rat
import Mathlib.Data.Rat.Cast.Order
import Mathlib.Tactic.FieldSimp
import Mathlib.Tactic.Linarith
import Mathlib.Tactic.Positivity
import Mathlib.Tactic.Ring
import ShaderIntake.Binary32

/-!
# Rounding a magnitude

`nearest n d` is the magnitude whose value in units is nearest to `n / d`, and of two
that are equally near the even one.

There are five groups.

* The nearest integer.  `NearestInteger x k` says that `k` is at most a half away from
  `x`, and even if it is exactly a half away.  It is what `roundHalfEven` computes.
* The values of magnitudes.  `units_add_mul` is the value of a magnitude by its binade,
  `units_strictMono` says that values grow with magnitudes, and `units_grid` that from
  one binade up all values lie on the grid of that binade.
* The binade of the exact value.  `shift n d` is the exponent of the grid that
  `nearest n d` rounds to, and `lt_two_pow_shift` and `two_pow_shift_le` bound the value
  by it.
* The nearest value.  `dist_rounded_le` says that no other value is nearer, and
  `rounded_even_of_tie` that one equally near makes the magnitude even.
* Overflow.  `infinite_le_rounded_iff` is where rounding leaves the finite magnitudes.
-/

namespace ShaderIntake.Binary32

/-! ## The nearest integer -/

/-- `k` is at most a half away from `x`, and even if it is a half away. -/
structure NearestInteger (x : ℚ) (k : ℕ) : Prop where
  dist_le : |(k : ℚ) - x| ≤ 1 / 2
  even_of_half : |(k : ℚ) - x| = 1 / 2 → k % 2 = 0

/-- Rounding goes down or up, to the even one where the remainder is half the divisor. -/
theorem roundHalfEven_cases (n d : ℕ) :
    roundHalfEven n d = n / d ∧ 2 * (n % d) ≤ d ∧ (2 * (n % d) = d → n / d % 2 = 0) ∨
      roundHalfEven n d = n / d + 1 ∧ d ≤ 2 * (n % d) ∧
        (2 * (n % d) = d → (n / d + 1) % 2 = 0) := by
  rw [roundHalfEven]
  split
  · exact .inl ⟨rfl, by omega, by omega⟩
  · exact .inr ⟨rfl, by omega, by omega⟩

theorem nearestInteger_below {q : ℕ} {f : ℚ} (hf : 0 ≤ f) (hhalf : f ≤ 1 / 2)
    (heven : f = 1 / 2 → q % 2 = 0) : NearestInteger (q + f) q := by
  have hdist : |(q : ℚ) - (q + f)| = f := by
    rw [sub_add_cancel_left, abs_neg, abs_of_nonneg hf]
  constructor
  · rw [hdist]
    exact hhalf
  · intro h
    rw [hdist] at h
    exact heven h

theorem nearestInteger_above {q : ℕ} {f : ℚ} (hf : f ≤ 1) (hhalf : 1 / 2 ≤ f)
    (heven : f = 1 / 2 → (q + 1) % 2 = 0) : NearestInteger (q + f) (q + 1) := by
  have hdist : |((q + 1 : ℕ) : ℚ) - (q + f)| = 1 - f := by
    push_cast
    rw [add_sub_add_left_eq_sub, abs_of_nonneg (by linarith)]
  constructor
  · rw [hdist]
    linarith
  · intro h
    rw [hdist] at h
    exact heven (by linarith)

/-- `roundHalfEven n d` is the integer nearest to `n / d`. -/
theorem nearestInteger_roundHalfEven {n d : ℕ} (hd : 0 < d) :
    NearestInteger (n / d : ℚ) (roundHalfEven n d) := by
  have hd' : (0 : ℚ) < d := Nat.cast_pos.2 hd
  have hmod : ((n % d : ℕ) : ℚ) ≤ d := Nat.cast_le.2 (Nat.mod_lt n hd).le
  -- What `n / d` exceeds the quotient by is the remainder as a part of the divisor.
  have hpart : (n / d : ℚ) = (n / d : ℕ) + ((n % d : ℕ) : ℚ) / d := by
    have hsplit : (n : ℚ) = d * (n / d : ℕ) + (n % d : ℕ) := by
      exact_mod_cast (Nat.div_add_mod n d).symm
    rw [hsplit]
    field_simp
  have hhalf : ((n % d : ℕ) : ℚ) / d = 1 / 2 → 2 * (n % d) = d := by
    intro h
    rw [div_eq_div_iff hd'.ne' two_ne_zero, one_mul, mul_comm] at h
    exact_mod_cast h
  rw [hpart]
  obtain ⟨hround, hle, heven⟩ | ⟨hround, hle, heven⟩ := roundHalfEven_cases n d
  · rw [hround]
    have hle' : 2 * ((n % d : ℕ) : ℚ) ≤ d := by exact_mod_cast hle
    refine nearestInteger_below (by positivity) ?_ fun h => heven (hhalf h)
    rw [div_le_div_iff₀ hd' two_pos]
    linarith
  · rw [hround]
    have hle' : (d : ℚ) ≤ 2 * ((n % d : ℕ) : ℚ) := by exact_mod_cast hle
    refine nearestInteger_above ?_ ?_ fun h => heven (hhalf h)
    · rw [div_le_one hd']
      exact hmod
    · rw [div_le_div_iff₀ two_pos hd']
      linarith

namespace NearestInteger

variable {x : ℚ} {k : ℕ} (h : NearestInteger x k)

include h

/-- Every other integer is at least a half away. -/
theorem half_le_of_ne {j : ℕ} (hj : j ≠ k) : 1 / 2 ≤ |(j : ℚ) - x| := by
  have hgap : (1 : ℚ) ≤ |(j : ℚ) - k| := by
    have hint : (1 : ℤ) ≤ |(j : ℤ) - k| := Int.one_le_abs (by omega)
    exact_mod_cast hint
  have htriangle : |(j : ℚ) - k| ≤ |(j : ℚ) - x| + |(k : ℚ) - x| := by
    rw [abs_sub_comm (k : ℚ) x]
    exact abs_sub_le (j : ℚ) x k
  have hk := h.dist_le
  linarith

theorem dist_le_dist (j : ℕ) : |(k : ℚ) - x| ≤ |(j : ℚ) - x| := by
  by_cases hj : j = k
  · rw [hj]
  · exact h.dist_le.trans (h.half_le_of_ne hj)

/-- Only the even one of two integers has an equally near neighbour. -/
theorem even_of_tie {j : ℕ} (hj : j ≠ k) (htie : |(j : ℚ) - x| = |(k : ℚ) - x|) :
    k % 2 = 0 := by
  apply h.even_of_half
  have hj := h.half_le_of_ne hj
  rw [htie] at hj
  exact le_antisymm h.dist_le hj

end NearestInteger

/-! ## The values of magnitudes -/

theorem nat_pow_two (q : ℕ) : Nat.pow 2 q = 2 ^ q := rfl

/-- The value of a magnitude by its binade: `q` binades and `k` more are worth `k` steps
of `2 ^ q` units, where `k` counts in the grid of the binade. -/
theorem units_add_mul {k q : ℕ} (hle : k ≤ 0x1000000) (hq : q = 0 ∨ 0x800000 ≤ k) :
    units (k + q * binadeSize) = k * 2 ^ q := by
  rw [units, binadeSize, nat_pow_two]
  obtain hlt | hge : k < 0x800000 ∨ 0x800000 ≤ k := Nat.lt_or_ge _ _
  · obtain rfl : q = 0 := by omega
    rw [if_pos (by omega), Nat.zero_mul, Nat.add_zero, pow_zero, Nat.mul_one]
  obtain hlt | rfl : k < 0x1000000 ∨ k = 0x1000000 := by omega
  · rw [if_neg (by omega), show (k + q * 0x800000) / 0x800000 - 1 = q by omega,
      show 0x800000 + (k + q * 0x800000) % 0x800000 = k by omega]
  · rw [if_neg (by omega), show (0x1000000 + q * 0x800000) / 0x800000 - 1 = q + 1 by omega,
      show 0x800000 + (0x1000000 + q * 0x800000) % 0x800000 = 0x800000 by omega, pow_succ]
    ring

/-- Every magnitude has a binade and a place in the grid of that binade. -/
theorem exists_eq_add_mul (m : ℕ) :
    ∃ k q, m = k + q * binadeSize ∧ k < 0x1000000 ∧ (q = 0 ∨ 0x800000 ≤ k) := by
  rw [binadeSize]
  obtain hlt | hge : m < 0x800000 ∨ 0x800000 ≤ m := Nat.lt_or_ge _ _
  · exact ⟨m, 0, by omega, by omega, .inl rfl⟩
  · exact ⟨0x800000 + m % 0x800000, m / 0x800000 - 1, by omega, by omega, by omega⟩

theorem units_lt_units_succ (m : ℕ) : units m < units (m + 1) := by
  obtain ⟨k, q, rfl, hk, hq⟩ := exists_eq_add_mul m
  have hnext : k + q * binadeSize + 1 = k + 1 + q * binadeSize := by omega
  rw [hnext, units_add_mul (k := k) (by omega) hq, units_add_mul (by omega) (by omega)]
  exact Nat.mul_lt_mul_of_pos_right (by omega) (by positivity)

/-- Values grow with magnitudes. -/
theorem units_strictMono : StrictMono units :=
  strictMono_nat_of_lt_succ units_lt_units_succ

/-- From one binade up, all values lie on the grid of that binade. -/
theorem units_grid (m q : ℕ) : (∃ j, units m = j * 2 ^ q) ∨ units m < 2 ^ (q + 23) := by
  obtain ⟨k, q', rfl, hk, hq⟩ := exists_eq_add_mul m
  rw [units_add_mul (by omega) hq]
  obtain hle | hlt : q ≤ q' ∨ q' < q := by omega
  · left
    refine ⟨k * 2 ^ (q' - q), ?_⟩
    rw [Nat.mul_assoc, ← pow_add, Nat.sub_add_cancel hle]
  · right
    calc k * 2 ^ q' < 2 ^ 24 * 2 ^ q' := Nat.mul_lt_mul_of_pos_right hk (by positivity)
      _ = 2 ^ (q' + 1 + 23) := by rw [← pow_add]; congr 1; omega
      _ ≤ 2 ^ (q + 23) := Nat.pow_le_pow_right two_pos (by omega)

/-! ## The binade of the exact value -/

/-- The exponent of the grid that `nearest n d` rounds to. -/
def shift (n d : ℕ) : ℕ := (n / d).log2 - 23

/-- The place of `n / d` in its grid, rounded. -/
def rounded (n d : ℕ) : ℕ := roundHalfEven n (d * 2 ^ shift n d)

theorem nearest_eq (n d : ℕ) :
    nearest n d = min infinite (rounded n d + shift n d * binadeSize) := rfl

section Value

variable (n : ℕ) {d : ℕ} (hd : 0 < d)

include hd

theorem lt_two_pow_shift : (n / d : ℚ) < 2 ^ (shift n d + 24) := by
  have hd' : (0 : ℚ) < d := Nat.cast_pos.2 hd
  have hquotient : n / d < 2 ^ (shift n d + 24) := by
    apply Nat.lt_of_lt_of_le Nat.lt_log2_self
    apply Nat.pow_le_pow_right two_pos
    rw [shift]
    omega
  rw [div_lt_iff₀ hd']
  rw [Nat.div_lt_iff_lt_mul hd] at hquotient
  exact_mod_cast hquotient

theorem two_pow_shift_le (hshift : 0 < shift n d) : (2 : ℚ) ^ (shift n d + 23) ≤ n / d := by
  have hd' : (0 : ℚ) < d := Nat.cast_pos.2 hd
  have hlog : (n / d).log2 = shift n d + 23 := by
    rw [shift] at hshift ⊢
    omega
  have hquotient : 2 ^ (shift n d + 23) ≤ n / d := by
    rw [← hlog]
    apply Nat.log2_self_le
    intro hzero
    rw [hzero] at hlog
    simp at hlog
  rw [le_div_iff₀ hd']
  rw [Nat.le_div_iff_mul_le hd] at hquotient
  exact_mod_cast hquotient

theorem nearestInteger_rounded :
    NearestInteger (n / d / 2 ^ shift n d : ℚ) (rounded n d) := by
  have hscaled : (n / d / 2 ^ shift n d : ℚ) = n / ((d * 2 ^ shift n d : ℕ) : ℚ) := by
    push_cast
    rw [div_div]
  rw [hscaled]
  exact nearestInteger_roundHalfEven (by positivity)

theorem rounded_le : rounded n d ≤ 0x1000000 := by
  have hpow : (0 : ℚ) < 2 ^ shift n d := by positivity
  have hlt : (n / d / 2 ^ shift n d : ℚ) < 0x1000000 := by
    rw [div_lt_iff₀ hpow]
    calc (n / d : ℚ) < 2 ^ (shift n d + 24) := lt_two_pow_shift n hd
      _ = 0x1000000 * 2 ^ shift n d := by rw [pow_add, mul_comm]; norm_num
  have hdist := abs_le.1 (nearestInteger_rounded n hd).dist_le
  have hcast : (rounded n d : ℚ) < (0x1000001 : ℕ) := by
    push_cast
    linarith
  have hnat : rounded n d < 0x1000001 := by exact_mod_cast hcast
  omega

theorem le_rounded (hshift : 0 < shift n d) : 0x800000 ≤ rounded n d := by
  have hpow : (0 : ℚ) < 2 ^ shift n d := by positivity
  have hle : (0x800000 : ℚ) ≤ n / d / 2 ^ shift n d := by
    rw [le_div_iff₀ hpow]
    calc (0x800000 : ℚ) * 2 ^ shift n d = 2 ^ (shift n d + 23) := by
          rw [pow_add, mul_comm]; norm_num
      _ ≤ n / d := two_pow_shift_le n hd hshift
  have hdist := abs_le.1 (nearestInteger_rounded n hd).dist_le
  have hcast : ((0x7fffff : ℕ) : ℚ) < rounded n d := by
    push_cast
    linarith
  have hnat : 0x7fffff < rounded n d := by exact_mod_cast hcast
  omega

/-- The value of the magnitude before it is cut off at the infinity. -/
theorem units_rounded :
    units (rounded n d + shift n d * binadeSize) = rounded n d * 2 ^ shift n d := by
  apply units_add_mul (rounded_le n hd)
  obtain hzero | hpos := Nat.eq_zero_or_pos (shift n d)
  · exact .inl hzero
  · exact .inr (le_rounded n hd hpos)

/-! ## The nearest value -/

omit hd in
/-- Distances on the grid are distances of integers. -/
theorem dist_grid (j : ℕ) :
    |((j * 2 ^ shift n d : ℕ) : ℚ) - n / d| =
      2 ^ shift n d * |(j : ℚ) - n / d / 2 ^ shift n d| := by
  have hpow : (0 : ℚ) < 2 ^ shift n d := by positivity
  rw [← abs_of_pos hpow, ← abs_mul, abs_of_pos hpow, mul_sub, mul_div_cancel₀ _ hpow.ne']
  push_cast
  rw [mul_comm]

/-- No value on the grid is nearer. -/
theorem dist_rounded_le_grid (j : ℕ) :
    |((rounded n d * 2 ^ shift n d : ℕ) : ℚ) - n / d| ≤
      |((j * 2 ^ shift n d : ℕ) : ℚ) - n / d| := by
  rw [dist_grid n, dist_grid n]
  exact mul_le_mul_of_nonneg_left ((nearestInteger_rounded n hd).dist_le_dist j) (by positivity)

/-- A value off the grid lies below the binade of `n / d`, and the bound of that binade is
on the grid and nearer. -/
theorem dist_rounded_lt_of_lt {u : ℕ} (hshift : 0 < shift n d) (hu : u < 2 ^ (shift n d + 23)) :
    |((rounded n d * 2 ^ shift n d : ℕ) : ℚ) - n / d| < |(u : ℚ) - n / d| := by
  have hle := two_pow_shift_le n hd hshift
  have hlt : (u : ℚ) < 2 ^ (shift n d + 23) := by exact_mod_cast hu
  have hbound : ((0x800000 * 2 ^ shift n d : ℕ) : ℚ) = 2 ^ (shift n d + 23) := by
    push_cast
    rw [pow_add, mul_comm]
    norm_num
  calc |((rounded n d * 2 ^ shift n d : ℕ) : ℚ) - n / d|
      ≤ |((0x800000 * 2 ^ shift n d : ℕ) : ℚ) - n / d| := dist_rounded_le_grid n hd 0x800000
    _ = n / d - 2 ^ (shift n d + 23) := by rw [hbound, abs_sub_comm, abs_of_nonneg (by linarith)]
    _ < n / d - u := by linarith
    _ = |(u : ℚ) - n / d| := by rw [abs_sub_comm, abs_of_nonneg (by linarith)]

/-- Every value is on the grid or farther away than the rounded one. -/
theorem units_grid_or_far (m : ℕ) :
    (∃ j, units m = j * 2 ^ shift n d) ∨
      |((rounded n d * 2 ^ shift n d : ℕ) : ℚ) - n / d| < |(units m : ℚ) - n / d| := by
  obtain hzero | hpos := Nat.eq_zero_or_pos (shift n d)
  · left
    exact ⟨units m, by rw [hzero, pow_zero, Nat.mul_one]⟩
  · obtain hgrid | hlt := units_grid m (shift n d)
    · exact .inl hgrid
    · exact .inr (dist_rounded_lt_of_lt n hd hpos hlt)

/-- No magnitude has a value nearer to `n / d`. -/
theorem dist_rounded_le (m : ℕ) :
    |(units (rounded n d + shift n d * binadeSize) : ℚ) - n / d| ≤ |(units m : ℚ) - n / d| := by
  rw [units_rounded n hd]
  obtain ⟨j, hj⟩ | hfar := units_grid_or_far n hd m
  · rw [hj]
    exact dist_rounded_le_grid n hd j
  · exact hfar.le

/-- Where another magnitude has a value equally near, the rounded one is even. -/
theorem rounded_even_of_tie {m : ℕ}
    (hne : units m ≠ units (rounded n d + shift n d * binadeSize))
    (htie : |(units m : ℚ) - n / d| =
      |(units (rounded n d + shift n d * binadeSize) : ℚ) - n / d|) :
    (rounded n d + shift n d * binadeSize) % 2 = 0 := by
  have hparity : (rounded n d + shift n d * binadeSize) % 2 = rounded n d % 2 := by
    rw [binadeSize]
    omega
  rw [units_rounded n hd] at hne htie
  rw [hparity]
  obtain ⟨j, hj⟩ | hfar := units_grid_or_far n hd m
  · rw [hj, dist_grid n, dist_grid n] at htie
    rw [hj] at hne
    apply (nearestInteger_rounded n hd).even_of_tie (j := j)
    · exact fun h => hne (by rw [h])
    · exact mul_left_cancel₀ (by positivity) htie
  · exact absurd htie hfar.ne'

/-! ## Overflow -/

/-- In front of the last binade nothing overflows. -/
theorem div_lt_of_shift_le (h : shift n d ≤ 252) : (n / d / 2 ^ 253 : ℚ) < 2 ^ 23 := by
  have hpow : (2 : ℚ) ^ (shift n d + 24) ≤ 2 ^ 23 * 2 ^ 253 := by
    rw [← pow_add]
    exact pow_le_pow_right₀ one_le_two (by omega)
  rw [div_lt_iff₀ (by positivity)]
  exact (lt_two_pow_shift n hd).trans_le hpow

/-- Behind the last binade everything does. -/
theorem le_div_of_le_shift (h : 254 ≤ shift n d) : (2 ^ 24 : ℚ) ≤ n / d / 2 ^ 253 := by
  have hpow : (2 : ℚ) ^ 24 * 2 ^ 253 ≤ 2 ^ (shift n d + 23) := by
    rw [← pow_add]
    exact pow_le_pow_right₀ one_le_two (by omega)
  rw [le_div_iff₀ (by positivity)]
  exact hpow.trans (two_pow_shift_le n hd (by omega))

/-- In the last binade it depends on the place in the grid. -/
theorem rounded_eq_bound_iff (h : shift n d = 253) :
    rounded n d = 0x1000000 ↔ (0x1000000 - 1 / 2 : ℚ) ≤ n / d / 2 ^ 253 := by
  have hle := rounded_le n hd
  have hnearest := nearestInteger_rounded n hd
  rw [h] at hnearest
  have hdist := abs_le.1 hnearest.dist_le
  constructor
  · intro hk
    rw [hk] at hdist
    push_cast at hdist
    linarith
  · intro hq
    by_contra hsmall
    -- Only the last finite place is left, and it is odd.
    have hk : rounded n d = 0xffffff := by
      apply le_antisymm (by omega)
      have hcast : ((0xfffffe : ℕ) : ℚ) < rounded n d := by
        push_cast
        linarith
      exact_mod_cast hcast
    rw [hk] at hdist
    push_cast at hdist
    have heven : rounded n d % 2 = 0 := by
      apply hnearest.even_of_half
      rw [hk, abs_sub_comm]
      push_cast
      rw [abs_of_nonneg (by linarith)]
      linarith
    omega

/-- Rounding leaves the finite magnitudes from the value on that is half a step of the last
binade below the first power of two behind it. -/
theorem infinite_le_rounded_iff :
    infinite ≤ rounded n d + shift n d * binadeSize ↔
      (0x1000000 - 1 / 2 : ℚ) * 2 ^ 253 ≤ n / d := by
  have hle := rounded_le n hd
  rw [infinite, binadeSize, ← le_div_iff₀ (by positivity)]
  obtain hsmall | hlast | hlarge :
      shift n d ≤ 252 ∨ shift n d = 253 ∨ 254 ≤ shift n d := by omega
  · have hplace := div_lt_of_shift_le n hd hsmall
    constructor
    · omega
    · intro h
      norm_num at hplace
      linarith
  · rw [← rounded_eq_bound_iff n hd hlast]
    omega
  · have hk := le_rounded n hd (by omega)
    have hplace := le_div_of_le_shift n hd hlarge
    constructor
    · intro _
      norm_num at hplace
      linarith
    · omega

end Value

end ShaderIntake.Binary32
