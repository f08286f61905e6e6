import ShaderIntake.Proofs.Binary32.SpecialValues

/-!
# Similar numbers

Two numbers are similar when both are NaNs or they are numerically equal.  Patterns can
differ there in two ways only, in the payload of a NaN and in the sign of a zero
(`similar_iff`), and products and sums of similar numbers are similar: no operation turns
one of the two into a difference of numbers.

`Similar.mul_left` and `Similar.add_left` carry the cases, and the operations commute.
-/

namespace ShaderIntake.Binary32

/-- The two are both NaNs, or they are numerically equal. -/
def Similar (x y : Binary32) : Prop :=
  (x.isNaN = true ∧ y.isNaN = true) ∨ x.numericEq y = true

section

variable {x y z : Binary32}

/-- Similar numbers have the same pattern, or both are NaNs, or both are zeros. -/
theorem similar_iff :
    Similar x y ↔ x = y ∨ (x.isNaN = true ∧ y.isNaN = true) ∨
      (x.isZero = true ∧ y.isZero = true) := by
  have hzero {u : Binary32} (h : u.isZero = true) : u.isNaN = false :=
    isNaN_eq_false (isFinite_of_isZero h)
  constructor
  · rintro (hnan | heq)
    · exact .inr (.inl hnan)
    · simp only [numericEq, Bool.and_eq_true, Bool.or_eq_true, decide_eq_true_eq] at heq
      obtain ⟨_, hsame | hzeros⟩ := heq
      · exact .inl hsame
      · exact .inr (.inr hzeros)
  · rintro (rfl | hnan | ⟨hx, hy⟩)
    · cases h : x.isNaN with
      | false => exact .inr (by simp [numericEq, h])
      | true => exact .inl ⟨h, h⟩
    · exact .inl hnan
    · exact .inr (by simp [numericEq, hx, hy, hzero hx, hzero hy])

theorem Similar.refl (x : Binary32) : Similar x x :=
  similar_iff.2 (.inl rfl)

theorem Similar.of_isNaN (hx : x.isNaN = true) (hy : y.isNaN = true) : Similar x y :=
  .inl ⟨hx, hy⟩

theorem Similar.of_isZero (hx : x.isZero = true) (hy : y.isZero = true) : Similar x y :=
  similar_iff.2 (.inr (.inr ⟨hx, hy⟩))

theorem Similar.trans (hxy : Similar x y) (hyz : Similar y z) : Similar x z := by
  obtain rfl | ⟨hx, hy⟩ | ⟨hx, hy⟩ := similar_iff.1 hxy
  · exact hyz
  · obtain rfl | ⟨_, hz⟩ | ⟨hy', _⟩ := similar_iff.1 hyz
    · exact hxy
    · exact .of_isNaN hx hz
    · exact absurd (isFinite_of_isZero hy') (not_isFinite_of_isNaN hy)
  · obtain rfl | ⟨hy', _⟩ | ⟨_, hz⟩ := similar_iff.1 hyz
    · exact hxy
    · exact absurd (isFinite_of_isZero hy) (not_isFinite_of_isNaN hy')
    · exact .of_isZero hx hz

/-! ## Products -/

theorem mul_comm (x y : Binary32) : x.mul y = y.mul x := by
  rw [mul, mul, Bool.or_comm x.isNaN, Bool.or_comm x.isInfinite, Bool.or_comm x.isZero,
    Nat.mul_comm (units x.magnitude), bne_comm (a := x.negative)]

/-- What a zero is multiplied with decides alone whether the product is a zero or a NaN. -/
theorem mul_of_isZero (hx : x.isZero = true) (y : Binary32) :
    (y.IsFinite ∧ (x.mul y).isZero = true) ∨ (¬y.IsFinite ∧ (x.mul y).isNaN = true) := by
  have hfinite := isFinite_of_isZero hx
  obtain hy | hy | hy := kind_cases y
  · exact .inr ⟨not_isFinite_of_isNaN hy, isNaN_mul_iff.2 (.inr (.inl hy))⟩
  · exact .inr ⟨not_isFinite_of_isInfinite hy, isNaN_mul_iff.2 (.inr (.inr (.inl ⟨hx, hy⟩)))⟩
  · refine .inl ⟨hy, isZero_mul_iff.2 ⟨hfinite, hy, ?_⟩⟩
    rw [abs_mul, abs_value, isZero_iff_absValue.1 hx, zero_mul]
    exact underflowBound_pos.le

theorem Similar.mul_left (h : Similar x y) (z : Binary32) : Similar (x.mul z) (y.mul z) := by
  obtain rfl | ⟨hx, hy⟩ | ⟨hx, hy⟩ := similar_iff.1 h
  · exact .refl _
  · exact .of_isNaN (isNaN_mul_iff.2 (.inl hx)) (isNaN_mul_iff.2 (.inl hy))
  · obtain ⟨hz, hxz⟩ | ⟨hz, hxz⟩ := mul_of_isZero hx z
    · obtain ⟨_, hyz⟩ | ⟨hz', _⟩ := mul_of_isZero hy z
      · exact .of_isZero hxz hyz
      · exact absurd hz hz'
    · obtain ⟨hz', _⟩ | ⟨_, hyz⟩ := mul_of_isZero hy z
      · exact absurd hz' hz
      · exact .of_isNaN hxz hyz

theorem Similar.mul {x' y' : Binary32} (hx : Similar x x') (hy : Similar y y') :
    Similar (x.mul y) (x'.mul y') := by
  have hright : Similar (x'.mul y) (x'.mul y') := by
    rw [mul_comm x', mul_comm x']
    exact hy.mul_left x'
  exact (hx.mul_left y).trans hright

/-! ## Sums -/

theorem sumInvalid_comm (x y : Binary32) : SumInvalid x y ↔ SumInvalid y x := by
  rw [SumInvalid, SumInvalid, ne_comm]
  tauto

theorem add_comm (x y : Binary32) : x.add y = y.add x := by
  obtain ⟨hinvalid, hadd⟩ | ⟨hvalid, hx, hadd⟩ | ⟨hvalid, hy, hadd⟩ | ⟨hx, hy⟩ := add_cases x y
  · rw [hadd, add_of_sumInvalid ((sumInvalid_comm x y).1 hinvalid)]
  · rw [hadd, add_of_isInfinite_right (mt (sumInvalid_comm y x).1 hvalid) hx]
  · rw [hadd, add_of_isInfinite_left (mt (sumInvalid_comm y x).1 hvalid) hy]
  · rw [add_eq hx hy, add_eq hy hx, Int.add_comm, Bool.and_comm]

/-- Two zeros in front of one summand: the sums are the same unless they are zeros. -/
theorem similar_add_of_isZero (hx : x.isZero = true) (hy : y.isZero = true) (z : Binary32) :
    Similar (x.add z) (y.add z) := by
  have hxfinite := isFinite_of_isZero hx
  have hyfinite := isFinite_of_isZero hy
  obtain hz | hz | hz := kind_cases z
  · exact .of_isNaN (isNaN_add_iff.2 (.inr (.inl hz))) (isNaN_add_iff.2 (.inr (.inl hz)))
  · have hvalid {u : Binary32} (hu : u.IsFinite) : ¬SumInvalid u z := by
      rw [SumInvalid, isNaN_eq_false hu, isInfinite_eq_false hu,
        isNaN_eq_false_of_isInfinite hz]
      simp
    rw [add_of_isInfinite_right (hvalid hxfinite) hz, add_of_isInfinite_right (hvalid hyfinite) hz]
    exact .refl z
  · rw [add_eq hxfinite hz, add_eq hyfinite hz, isZero_iff_signedUnits.1 hx,
      isZero_iff_signedUnits.1 hy]
    split
    · exact .of_isZero (isZero_ofMagnitude _) (isZero_ofMagnitude _)
    · exact .refl _

theorem Similar.add_left (h : Similar x y) (z : Binary32) : Similar (x.add z) (y.add z) := by
  obtain rfl | ⟨hx, hy⟩ | ⟨hx, hy⟩ := similar_iff.1 h
  · exact .refl _
  · exact .of_isNaN (isNaN_add_iff.2 (.inl hx)) (isNaN_add_iff.2 (.inl hy))
  · exact similar_add_of_isZero hx hy z

theorem Similar.add {x' y' : Binary32} (hx : Similar x x') (hy : Similar y y') :
    Similar (x.add y) (x'.add y') := by
  have hright : Similar (x'.add y) (x'.add y') := by
    rw [add_comm x', add_comm x']
    exact hy.add_left x'
  exact (hx.add_left y).trans hright

/-! ## Both operations -/

theorem Similar.mulAdd {x' y' z' : Binary32} (hx : Similar x x') (hy : Similar y y')
    (hz : Similar z z') : Similar (x.mulAdd y z) (x'.mulAdd y' z') :=
  (hx.mul hy).add hz

end

end ShaderIntake.Binary32
