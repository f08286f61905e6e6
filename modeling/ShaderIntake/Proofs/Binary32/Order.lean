import ShaderIntake.Proofs.Binary32.Similar

/-!
# The order of numbers

`LessEq` is the order in which numbers are compared.  Products and sums of ordered numbers
are ordered as long as all of them are numbers.

There are two reasons for that, and they are kept apart.  The exact product and the exact
sum are ordered, and rounding keeps the order (`RoundsTo.lessEq`): the number that is
nearest to the larger rational can only be the smaller one if both rationals are the point
halfway between the two, and then they round to one value.  And where an operand is an
infinity, so is the result, and its sign is enough.
-/

namespace ShaderIntake.Binary32

/-- The first number is at most the second.  The two zeros are equal, and a NaN is in order
with nothing. -/
inductive LessEq (x y : Binary32) : Prop where
  /-- The negative infinity is at most every number. -/
  | negInfinity (hx : x.isInfinite = true) (hsign : x.negative = true) (hy : y.isNaN = false)
  /-- Every number is at most the positive infinity. -/
  | posInfinity (hx : x.isNaN = false) (hy : y.isInfinite = true) (hsign : y.negative = false)
  | finite (hx : x.IsFinite) (hy : y.IsFinite) (h : x.value ≤ y.value)

section

variable {x x' y y' : Binary32}

theorem LessEq.refl (hx : x.isNaN = false) : LessEq x x := by
  obtain hnan | hinf | hfinite := kind_cases x
  · rw [hx] at hnan
    cases hnan
  · cases hsign : x.negative with
    | false => exact .posInfinity hx hinf hsign
    | true => exact .negInfinity hinf hsign hx
  · exact .finite hfinite hfinite le_rfl

theorem value_le_value_iff : x.value ≤ y.value ↔ x.signedUnits ≤ y.signedUnits := by
  rw [value_eq_signedUnits, value_eq_signedUnits, div_le_div_iff_of_pos_right (by positivity),
    Int.cast_le]

theorem absValue_pos (hx : x.isZero = false) : 0 < x.absValue := by
  apply lt_of_le_of_ne x.absValue_nonneg
  intro hzero
  rw [isZero_iff_absValue.2 hzero.symm] at hx
  cases hx

/-- What is at least a number without a minus sign has none either, unless it is a zero. -/
theorem LessEq.negative_eq_false (h : LessEq x y) (hx : x.negative = false)
    (hy : y.isZero = false) : y.negative = false := by
  cases h with
  | negInfinity _ hsign _ =>
    rw [hx] at hsign
    cases hsign
  | posInfinity _ _ hsign => exact hsign
  | finite _ _ hle =>
    have hpos := absValue_pos hy
    have hnonneg := x.absValue_nonneg
    rw [value, value, hx] at hle
    cases hsign : y.negative with
    | false => rfl
    | true =>
      rw [hsign, if_neg Bool.false_ne_true, if_pos rfl] at hle
      linarith

/-! ## Rounding keeps the order -/

/-- What is no farther from `a` than from a smaller `b` is not below the point halfway. -/
theorem add_le_two_mul_of_dist_le {a b t : ℚ} (hlt : b < a) (h : |a - t| ≤ |b - t|) :
    a + b ≤ 2 * t := by
  have hsq := sq_le_sq.2 h
  nlinarith

/-- What is no farther from `a` than from a larger `b` is not above the point halfway. -/
theorem two_mul_le_add_of_dist_le {a b t : ℚ} (hlt : a < b) (h : |a - t| ≤ |b - t|) :
    2 * t ≤ a + b := by
  have hsq := sq_le_sq.2 h
  nlinarith

variable {q q' : ℚ}

theorem IsNearest.value_le (hx : IsNearest q x) (hy : IsNearest q' y) (h : q < q') :
    x.value ≤ y.value := by
  by_contra hnot
  have hlt : y.value < x.value := not_le.1 hnot
  have hbelow := add_le_two_mul_of_dist_le hlt (hx.dist_le y hy.finite)
  have habove := two_mul_le_add_of_dist_le hlt (hy.dist_le x hx.finite)
  linarith

theorem overflowBound_pos : 0 < overflowBound := by
  rw [overflowBound]
  norm_num

namespace RoundsTo

/-- What is too large for the finite numbers rounds to the positive infinity. -/
theorem negative_eq_false_of_le (hx : RoundsTo q x) (h : overflowBound ≤ q) :
    x.isInfinite = true ∧ x.negative = false := by
  have hpos : 0 < q := overflowBound_pos.trans_le h
  refine ⟨hx.isInfinite (h.trans (le_abs_self q)), ?_⟩
  rw [← Bool.not_eq_true, hx.negative_iff hpos.ne']
  exact not_lt.2 hpos.le

/-- What is too small for the finite numbers rounds to the negative infinity. -/
theorem negative_eq_true_of_le (hx : RoundsTo q x) (h : q ≤ -overflowBound) :
    x.isInfinite = true ∧ x.negative = true := by
  have hpos := overflowBound_pos
  have hneg : q < 0 := by linarith
  refine ⟨hx.isInfinite ?_, (hx.negative_iff hneg.ne).2 hneg⟩
  rw [abs_of_neg hneg]
  linarith

/-- Rounding keeps the order. -/
theorem lessEq (hx : RoundsTo q x) (hy : RoundsTo q' y) (h : q ≤ q') : LessEq x y := by
  by_cases hlow : q ≤ -overflowBound
  · obtain ⟨hinf, hsign⟩ := hx.negative_eq_true_of_le hlow
    exact .negInfinity hinf hsign hy.isNaN_eq_false
  by_cases hhigh : overflowBound ≤ q'
  · obtain ⟨hinf, hsign⟩ := hy.negative_eq_false_of_le hhigh
    exact .posInfinity hx.isNaN_eq_false hinf hsign
  -- Neither end is reached, so both rationals are within the bounds.
  have hxn := hx.isNearest (abs_lt.2 ⟨by linarith, by linarith⟩)
  have hyn := hy.isNearest (abs_lt.2 ⟨by linarith, by linarith⟩)
  refine .finite hxn.finite hyn.finite ?_
  obtain rfl | hlt := h.eq_or_lt
  · exact (hx.value_eq hy).le
  · exact hxn.value_le hyn hlt

end RoundsTo

/-! ## Sums -/

theorem LessEq.add_left (h : LessEq y y') (hr : (x.add y).isNaN = false)
    (hr' : (x.add y').isNaN = false) : LessEq (x.add y) (x.add y') := by
  have hvalid := not_sumInvalid_of_isNaN_eq_false hr
  have hvalid' := not_sumInvalid_of_isNaN_eq_false hr'
  obtain hx | hx | hx := kind_cases x
  · exact absurd (.inl hx) hvalid
  · rw [add_of_isInfinite_left hvalid hx, add_of_isInfinite_left hvalid' hx]
    exact .refl (isNaN_eq_false_of_isInfinite hx)
  · cases h with
    | negInfinity hy hsign _ =>
      rw [add_of_isInfinite_right hvalid hy]
      exact .negInfinity hy hsign hr'
    | posInfinity _ hy' hsign =>
      rw [add_of_isInfinite_right hvalid' hy']
      exact .posInfinity hr hy' hsign
    | finite hy hy' hle =>
      exact (roundsTo_add hx hy).lessEq (roundsTo_add hx hy') (add_le_add_right hle x.value)

theorem LessEq.add_right (h : LessEq x x') (hr : (x.add y).isNaN = false)
    (hr' : (x'.add y).isNaN = false) : LessEq (x.add y) (x'.add y) := by
  rw [add_comm] at hr hr'
  rw [add_comm x, add_comm x']
  exact h.add_left hr hr'

/-! ## Products -/

/-- The factor of an infinity is no zero where their product is a number. -/
theorem isZero_eq_false_of_valid (hx : x.isInfinite = true) (hvalid : ¬ProductInvalid x y) :
    y.isZero = false := by
  rw [← Bool.not_eq_true]
  intro hzero
  exact hvalid (.inr (.inr (.inr ⟨hx, hzero⟩)))

theorem LessEq.value_nonneg (h : LessEq zero y) (hy : y.IsFinite) : 0 ≤ y.value := by
  cases h with
  | negInfinity hzero => cases hzero
  | posInfinity _ hinf => exact absurd hy (not_isFinite_of_isInfinite hinf)
  | finite _ _ hle => exact value_zero ▸ hle

/-- Multiplying with a number that is not below zero keeps the order. -/
theorem LessEq.mul_right (h : LessEq x x') (hy : LessEq zero y) (hr : (x.mul y).isNaN = false)
    (hr' : (x'.mul y).isNaN = false) : LessEq (x.mul y) (x'.mul y) := by
  have hvalid := not_productInvalid_of_isNaN_eq_false hr
  have hvalid' := not_productInvalid_of_isNaN_eq_false hr'
  -- An infinite factor leaves its sign to the product, unless the other one is a zero.
  have hsign (hne : y.isZero = false) : y.negative = false :=
    hy.negative_eq_false (by decide) hne
  obtain hnan | hinf | hfinite := kind_cases y
  · exact absurd (.inr (.inl hnan)) hvalid
  · have hpos := hsign (isZero_eq_false_of_isInfinite hinf)
    cases hx : x.negative with
    | true =>
      refine .negInfinity ((isInfinite_mul_iff hvalid).2 (.inr (.inl hinf))) ?_ hr'
      rw [negative_mul hvalid, hx, hpos]
      rfl
    | false =>
      have hne : x'.isZero = false := by
        rw [← Bool.not_eq_true]
        intro hzero
        exact hvalid' (.inr (.inr (.inl ⟨hzero, hinf⟩)))
      refine .posInfinity hr ((isInfinite_mul_iff hvalid').2 (.inr (.inl hinf))) ?_
      rw [negative_mul hvalid', h.negative_eq_false hx hne, hpos]
      rfl
  · cases h with
    | negInfinity hx hxsign _ =>
      refine .negInfinity ((isInfinite_mul_iff hvalid).2 (.inl hx)) ?_ hr'
      rw [negative_mul hvalid, hxsign, hsign (isZero_eq_false_of_valid hx hvalid)]
      rfl
    | posInfinity _ hx' hxsign =>
      refine .posInfinity hr ((isInfinite_mul_iff hvalid').2 (.inl hx')) ?_
      rw [negative_mul hvalid', hxsign, hsign (isZero_eq_false_of_valid hx' hvalid')]
      rfl
    | finite hx hx' hle =>
      exact (roundsTo_mul hx hfinite).lessEq (roundsTo_mul hx' hfinite)
        (mul_le_mul_of_nonneg_right hle (hy.value_nonneg hfinite))

/-! ## Both operations -/

theorem isNaN_eq_false_of_add (h : (x.add y).isNaN = false) : x.isNaN = false := by
  rw [← Bool.not_eq_true] at h ⊢
  intro hx
  exact h (isNaN_add_iff.2 (.inl hx))

variable {a a' b c c' : Binary32}

theorem LessEq.mulAdd_addend (h : LessEq c c') (hr : (a.mulAdd b c).isNaN = false)
    (hr' : (a.mulAdd b c').isNaN = false) : LessEq (a.mulAdd b c) (a.mulAdd b c') :=
  h.add_left hr hr'

theorem LessEq.mulAdd_factor (h : LessEq a a') (hb : LessEq zero b)
    (hr : (a.mulAdd b c).isNaN = false) (hr' : (a'.mulAdd b c).isNaN = false) :
    LessEq (a.mulAdd b c) (a'.mulAdd b c) :=
  (h.mul_right hb (isNaN_eq_false_of_add hr) (isNaN_eq_false_of_add hr')).add_right hr hr'

end

end ShaderIntake.Binary32
