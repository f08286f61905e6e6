import Mathlib.Algebra.Order.Field.Power
import Mathlib.Algebra.Order.Ring.Rat
import Mathlib.Data.Rat.Cast.Order
import Mathlib.Tactic.Positivity
import Mathlib.Tactic.Ring
import ShaderIntake.Binary32.Decimal

/-!
# The values of decimals

A decimal stands for its digits times a power of ten (`Decimal.value`), and many decimals
stand for one number: zeros at the end of the digits can be taken off (`value_trim`) or put
there (`exists_value_eq`).  So the number of digits that a number needs is a property of the
number, `HasDigits k q`.  A whole number that does not end with a zero needs all its digits
(`lt_of_hasDigits`), and a power of ten as a factor needs none (`hasDigits_mul_zpow_iff`).
-/

namespace ShaderIntake

namespace Decimal

/-- The number that a decimal stands for. -/
def value (x : Decimal) : ℚ :=
  x.digits * 10 ^ x.exponent

/-- A power of ten as a fraction of two whole numbers, one of which is one. -/
theorem ten_zpow_eq (e : ℤ) :
    (10 : ℚ) ^ e = ((Nat.pow 10 e.toNat : ℕ) : ℚ) / (Nat.pow 10 (-e).toNat : ℕ) := by
  obtain ⟨k, rfl | rfl⟩ := e.eq_nat_or_neg
  · simp
  · simp

theorem value_nonneg (x : Decimal) : 0 ≤ x.value := by
  rw [value]
  positivity

theorem value_eq_zero_iff {x : Decimal} : x.value = 0 ↔ x.digits = 0 := by
  have hpow : (10 : ℚ) ^ x.exponent ≠ 0 := by positivity
  rw [value, mul_eq_zero_iff_right hpow, Nat.cast_eq_zero]

/-- On one grid the order is that of the digits. -/
theorem value_le_value {a b : ℕ} (h : a ≤ b) (e : ℤ) : (mk a e).value ≤ (mk b e).value :=
  mul_le_mul_of_nonneg_right (Nat.cast_le.2 h) (by positivity)

/-- Zeros put at the end of the digits. -/
theorem value_mul_pow (c k : ℕ) (e : ℤ) : (mk (c * 10 ^ k) e).value = (mk c (e + k)).value := by
  rw [value, value, zpow_add₀ (by norm_num), zpow_natCast]
  push_cast
  ring

/-- A multiple of a power of ten is on the grid of every smaller one. -/
theorem exists_value_eq (x : Decimal) {e : ℤ} (he : e ≤ x.exponent) :
    ∃ c : ℕ, (mk c e).value = x.value := by
  obtain ⟨k, hk⟩ := Int.le.dest he
  refine ⟨x.digits * 10 ^ k, ?_⟩
  rw [value_mul_pow, hk]

/-! ## Zeros at the end -/

theorem value_dropZeros (count : ℕ) (x : Decimal) : (x.dropZeros count).value = x.value := by
  induction count generalizing x with
  | zero => rfl
  | succ count ih =>
    obtain ⟨c, e⟩ := x
    rw [dropZeros]
    split
    · rename_i hzero
      have hdigits : c / 10 * 10 ^ 1 = c := by
        simp only at hzero
        omega
      calc (dropZeros count ⟨c / 10, e + 1⟩).value = (mk (c / 10) (e + 1)).value := ih _
        _ = (mk (c / 10 * 10 ^ 1) e).value := (value_mul_pow (c / 10) 1 e).symm
        _ = (mk c e).value := by rw [hdigits]
    · rfl

theorem value_trim (x : Decimal) : x.trim.value = x.value :=
  value_dropZeros _ x

end Decimal

/-! ## Digits that a number needs -/

/-- A number that can be written with `k` digits and a power of ten. -/
def HasDigits (k : ℕ) (q : ℚ) : Prop :=
  ∃ x : Decimal, x.digits < 10 ^ k ∧ x.value = q

variable {k : ℕ} {q : ℚ}

theorem HasDigits.mono {l : ℕ} (h : HasDigits k q) (hkl : k ≤ l) : HasDigits l q := by
  obtain ⟨x, hdigits, hvalue⟩ := h
  exact ⟨x, hdigits.trans_le (Nat.pow_le_pow_right (by omega) hkl), hvalue⟩

theorem HasDigits.mul_zpow (h : HasDigits k q) (e : ℤ) : HasDigits k (q * 10 ^ e) := by
  obtain ⟨x, hdigits, hvalue⟩ := h
  refine ⟨⟨x.digits, x.exponent + e⟩, hdigits, ?_⟩
  rw [← hvalue, Decimal.value, Decimal.value, zpow_add₀ (by norm_num), mul_assoc]

theorem hasDigits_mul_zpow_iff (e : ℤ) : HasDigits k (q * 10 ^ e) ↔ HasDigits k q := by
  refine ⟨?_, fun h => h.mul_zpow e⟩
  intro h
  have hback := h.mul_zpow (-e)
  rwa [mul_assoc, ← zpow_add₀ (by norm_num), add_neg_cancel, zpow_zero, mul_one] at hback

/-- A whole number that does not end with a zero has no fewer digits than it is written
with. -/
theorem lt_of_hasDigits {n l : ℕ} (hn : 10 ^ l ≤ n) (hlast : n % 10 ≠ 0)
    (h : HasDigits k (n : ℚ)) : l < k := by
  obtain ⟨⟨c, e⟩, hdigits, hvalue⟩ := h
  rw [Decimal.value] at hvalue
  simp only at hdigits hvalue
  obtain ⟨j, rfl | rfl⟩ := e.eq_nat_or_neg
  · have hnat : c * 10 ^ j = n := by exact_mod_cast hvalue
    cases j with
    | zero =>
      rw [pow_zero, Nat.mul_one] at hnat
      exact (Nat.pow_lt_pow_iff_right (by omega)).1 (by omega : 10 ^ l < 10 ^ k)
    | succ j =>
      rw [pow_succ, ← Nat.mul_assoc] at hnat
      omega
  · rw [zpow_neg, zpow_natCast, ← div_eq_mul_inv, div_eq_iff (by positivity)] at hvalue
    have hnat : c = n * 10 ^ j := by exact_mod_cast hvalue
    have hle : n ≤ c := hnat ▸ Nat.le_mul_of_pos_right n (by positivity)
    exact (Nat.pow_lt_pow_iff_right (by omega)).1 (by omega : 10 ^ l < 10 ^ k)

end ShaderIntake
