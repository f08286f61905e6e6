import ShaderIntake.Proofs.Binary32.SpecialValues
import ShaderIntake.Proofs.Float4.MulAdd

/-!
# Special values in four lanes

What `Float4.mulAddLanes` gives in a lane that holds a NaN, an infinity or a zero, or whose
product leaves the finite numbers or vanishes.  `SpecialValues` lists the rules.  They are
about the exact product of the operands, not about how it is computed, and they tell two
roundings from one: a product of finite factors that overflows counts as an infinity before
the addend is looked at, and one that underflows as a zero with its own sign.
-/

namespace ShaderIntake

namespace Binary32

/-- The rules for `r = a * b + c` with a rounding after each operation. -/
structure SpecialValues (a b c r : Binary32) : Prop where
  /-- Besides what is no number already, a product that overflows and the opposite infinity
  give no number, also where both factors are finite. -/
  isNaN_iff : r.isNaN = true ↔
    ProductInvalid a b ∨ c.isNaN = true ∨
      (ProductOverflows a b ∧ c.isInfinite = true ∧ c.negative ≠ (a.negative != b.negative))
  eq_infinity : r.isNaN = false → ProductOverflows a b →
    r = ofMagnitude (a.negative != b.negative) infinite
  /-- Also next to an infinite product, which is then the same infinity. -/
  eq_addend : r.isNaN = false → c.isInfinite = true → r = c
  /-- A zero is negative only if both the addend and the rounded product are negative zeros. -/
  eq_neg_zero_iff : r.isZero = true →
    (r = zero.neg ↔ c = zero.neg ∧ a.negative ≠ b.negative ∧ ProductVanishes a b)
  /-- Every other zero is positive, exact cancellation included. -/
  eq_zero_iff : r.isZero = true →
    (r = zero ↔ ¬(c = zero.neg ∧ a.negative ≠ b.negative ∧ ProductVanishes a b))

section

variable {a b c : Binary32}

/-- The sum is no number if the product is none, the addend is none, or the product is an
infinity and the addend the opposite one. -/
theorem sumInvalid_mul_iff :
    SumInvalid (a.mul b) c ↔
      ProductInvalid a b ∨ c.isNaN = true ∨
        (ProductOverflows a b ∧ c.isInfinite = true ∧ c.negative ≠ (a.negative != b.negative)) := by
  rw [SumInvalid, isNaN_mul_iff]
  by_cases hinvalid : ProductInvalid a b
  · exact iff_of_true (.inl hinvalid) (.inl hinvalid)
  · rw [isInfinite_mul_iff hinvalid, negative_mul hinvalid, ne_comm]

/-- The rounded product is a negative zero where it vanishes and the signs differ. -/
theorem mul_eq_neg_zero_iff :
    ((a.mul b).isZero = true ∧ (a.mul b).negative = true) ↔
      a.negative ≠ b.negative ∧ ProductVanishes a b := by
  rw [isZero_mul_iff, and_comm]
  apply and_congr_left
  intro hvanishes
  rw [negative_mul (not_productInvalid_of_isFinite hvanishes.1 hvanishes.2.1), bne_iff_ne]

theorem mulAdd_eq_neg_zero_iff (hzero : (a.mulAdd b c).isZero = true) :
    a.mulAdd b c = zero.neg ↔
      c = zero.neg ∧ a.negative ≠ b.negative ∧ ProductVanishes a b := by
  have hnegative := negative_add_iff hzero
  rw [mul_eq_neg_zero_iff, ← Binary32.eq_neg_zero_iff] at hnegative
  rw [Binary32.eq_neg_zero_iff, mulAdd, hnegative, and_comm (a := c = zero.neg)]
  exact and_iff_right hzero

theorem mulAdd_eq_zero_iff (hzero : (a.mulAdd b c).isZero = true) :
    a.mulAdd b c = zero ↔
      ¬(c = zero.neg ∧ a.negative ≠ b.negative ∧ ProductVanishes a b) := by
  rw [← mulAdd_eq_neg_zero_iff hzero, Binary32.eq_neg_zero_iff, Binary32.eq_zero_iff]
  simp [hzero]

theorem specialValues_mulAdd (a b c : Binary32) : SpecialValues a b c (a.mulAdd b c) where
  isNaN_iff := isNaN_add_iff.trans sumInvalid_mul_iff
  eq_infinity := by
    intro hnumber hoverflows
    have hvalid : ¬SumInvalid (a.mul b) c := not_sumInvalid_of_isNaN_eq_false hnumber
    have hproduct : ¬ProductInvalid a b := fun h => hvalid (.inl (isNaN_mul_iff.2 h))
    have hinf := (isInfinite_mul_iff hproduct).2 hoverflows
    rw [mulAdd, add_of_isInfinite_left hvalid hinf]
    apply eq_of_magnitude_eq
    · rw [negative_mul hproduct, negative_ofMagnitude infinite_lt_signWeight]
    · rw [of_decide_eq_true hinf, magnitude_ofMagnitude infinite_lt_signWeight]
  eq_addend := by
    intro hnumber hc
    rw [mulAdd, add_of_isInfinite_right (not_sumInvalid_of_isNaN_eq_false hnumber) hc]
  eq_neg_zero_iff := mulAdd_eq_neg_zero_iff
  eq_zero_iff := mulAdd_eq_zero_iff

end

end Binary32

namespace Float4

open Binary32 (SpecialValues ProductOverflows)

/-- Each lane of `u * v + w` follows the rules for special values. -/
theorem mulAdd_special_values (u v w : Float4) (i : ℕ) {a b c : Binary32}
    (ha : u.lane? i = some a) (hb : v.lane? i = some b) (hc : w.lane? i = some c) :
    ∃ r, (mulAddLanes u v w).lane? i = some r ∧ (u.mulAdd v w).lane? i = some r ∧
      SpecialValues a b c r := by
  have hlane : (mulAddLanes u v w).lane? i = some (a.mulAdd b c) := lane?_zipLanes ha hb hc
  exact ⟨a.mulAdd b c, hlane, hlane, Binary32.specialValues_mulAdd a b c⟩

/-- The factors are finite, their product is `2 ^ 129`, and the addend is the negative
infinity. -/
theorem mulAdd_special_values_overflow :
    Binary32.IsFinite ⟨0x7f000000⟩ ∧ Binary32.IsFinite ⟨0x40800000⟩ ∧
      ProductOverflows ⟨0x7f000000⟩ ⟨0x40800000⟩ ∧
      ∃ r, (mulAddLanes (splat ⟨0x7f000000⟩) (splat ⟨0x40800000⟩) (splat ⟨0xff800000⟩)).lane? 2 =
        some r ∧ r.isNaN = true := by
  have hlarge : Binary32.IsFinite ⟨0x7f000000⟩ := by decide
  have hfour : Binary32.IsFinite ⟨0x40800000⟩ := by decide
  have hoverflows : ProductOverflows ⟨0x7f000000⟩ ⟨0x40800000⟩ := by
    have hmul : (Binary32.mul ⟨0x7f000000⟩ ⟨0x40800000⟩).isInfinite = true := by decide +kernel
    exact (Binary32.isInfinite_mul_iff
      (Binary32.not_productInvalid_of_isFinite hlarge hfour)).1 hmul
  obtain ⟨r, hr, _, hspecial⟩ := mulAdd_special_values (splat ⟨0x7f000000⟩)
    (splat ⟨0x40800000⟩) (splat ⟨0xff800000⟩) 2 rfl rfl rfl
  refine ⟨hlarge, hfour, hoverflows, r, hr, ?_⟩
  exact hspecial.isNaN_iff.2 (.inr (.inr ⟨hoverflows, by decide, by decide⟩))

end Float4

end ShaderIntake
