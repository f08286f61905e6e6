import ShaderIntake.Proofs.Binary32.Similar

/-!
# The other sign

Changing signs goes through products and sums: a product changes its sign with one factor,
whichever it is, and a sum with both summands.  Nothing in a rounding depends on the sign,
so the bits are the same up to the sign bit.

The one exception is a sum that is exactly zero, which is a positive zero whatever the
signs of the summands, unless both are negative zeros.  `IsNegation` leaves the sign of a
zero open for that reason, and what a NaN looks like.
-/

namespace ShaderIntake.Binary32

/-! ## The sign bit -/

section

variable (x : Binary32)

theorem magnitude_lt : x.magnitude < signWeight :=
  Nat.mod_lt _ (by decide)

@[simp] theorem negative_neg : x.neg.negative = !x.negative :=
  negative_ofMagnitude x.magnitude_lt

@[simp] theorem magnitude_neg : x.neg.magnitude = x.magnitude :=
  magnitude_ofMagnitude x.magnitude_lt

@[simp] theorem isNaN_neg : x.neg.isNaN = x.isNaN := by
  rw [isNaN, magnitude_neg, isNaN]

@[simp] theorem isInfinite_neg : x.neg.isInfinite = x.isInfinite := by
  rw [isInfinite, magnitude_neg, isInfinite]

@[simp] theorem isZero_neg : x.neg.isZero = x.isZero := by
  rw [isZero, magnitude_neg, isZero]

theorem isFinite_neg_iff : x.neg.IsFinite ↔ x.IsFinite := by
  rw [IsFinite, magnitude_neg, IsFinite]

theorem signedUnits_neg : x.neg.signedUnits = -x.signedUnits := by
  rw [signedUnits, negative_neg, magnitude_neg, signedUnits]
  cases x.negative <;> simp

end

theorem neg_ofMagnitude {negative : Bool} {m : ℕ} (hm : m < signWeight) :
    (ofMagnitude negative m).neg = ofMagnitude (!negative) m := by
  rw [neg, negative_ofMagnitude hm, magnitude_ofMagnitude hm]

section

variable {x y : Binary32}

/-! ## Products -/

/-- The sign can be taken from either factor. -/
theorem neg_mul_eq_mul_neg (x y : Binary32) : x.neg.mul y = x.mul y.neg := by
  have hsign : (x.neg.negative != y.negative) = (x.negative != y.neg.negative) := by
    rw [negative_neg, negative_neg, Bool.not_bne, Bool.bne_not]
  rw [mul, mul, hsign, isNaN_neg, isNaN_neg, isInfinite_neg, isInfinite_neg, isZero_neg,
    isZero_neg, magnitude_neg, magnitude_neg]

theorem productInvalid_neg_left : ProductInvalid x.neg y ↔ ProductInvalid x y := by
  rw [ProductInvalid, isNaN_neg, isZero_neg, isInfinite_neg, ProductInvalid]

/-- A product that is a number changes its sign with the first factor. -/
theorem neg_mul (hvalid : ¬ProductInvalid x y) : x.neg.mul y = (x.mul y).neg := by
  obtain ⟨hinvalid, _⟩ | ⟨_, hinf, hmul⟩ | ⟨hx, hy⟩ := mul_cases x y
  · exact absurd hinvalid hvalid
  · obtain ⟨hinvalid, _⟩ | ⟨_, _, hmul'⟩ | ⟨hx, hy⟩ := mul_cases x.neg y
    · exact absurd (productInvalid_neg_left.1 hinvalid) hvalid
    · rw [hmul, hmul', neg_ofMagnitude infinite_lt_signWeight, negative_neg, Bool.not_bne]
    · rw [isInfinite_eq_false ((isFinite_neg_iff x).1 hx), isInfinite_eq_false hy] at hinf
      simp at hinf
  · rw [mul_eq hx hy, mul_eq ((isFinite_neg_iff x).2 hx) hy,
      neg_ofMagnitude (nearest_lt_signWeight _ _), negative_neg, magnitude_neg, Bool.not_bne]

/-! ## Sums -/

theorem sumInvalid_neg_iff : SumInvalid x.neg y.neg ↔ SumInvalid x y := by
  rw [SumInvalid, isNaN_neg, isNaN_neg, isInfinite_neg, isInfinite_neg, negative_neg, negative_neg,
    Ne, Bool.not_inj_iff, SumInvalid]

/-- The second number is the first one with the other sign.  Which NaN or which zero it is
stays open. -/
structure IsNegation (r s : Binary32) : Prop where
  isNaN_iff : s.isNaN = true ↔ r.isNaN = true
  isZero_iff : s.isZero = true ↔ r.isZero = true
  eq_neg : r.isNaN = false → r.isZero = false → s = r.neg

theorem IsNegation.of_neg (r : Binary32) : IsNegation r r.neg where
  isNaN_iff := by rw [isNaN_neg]
  isZero_iff := by rw [isZero_neg]
  eq_neg _ _ := rfl

theorem IsNegation.of_nan : IsNegation nan nan where
  isNaN_iff := Iff.rfl
  isZero_iff := Iff.rfl
  eq_neg hnumber := by
    rw [isNaN_nan] at hnumber
    cases hnumber

theorem IsNegation.of_isZero {r s : Binary32} (hr : r.isZero = true) (hs : s.isZero = true) :
    IsNegation r s where
  isNaN_iff := by
    rw [isNaN_eq_false (isFinite_of_isZero hr), isNaN_eq_false (isFinite_of_isZero hs)]
  isZero_iff := iff_of_true hs hr
  eq_neg _ hne := by
    rw [hr] at hne
    cases hne

theorem isNegation_add_of_isFinite (hx : x.IsFinite) (hy : y.IsFinite) :
    IsNegation (x.add y) (x.neg.add y.neg) := by
  have hsum : x.neg.signedUnits + y.neg.signedUnits = -(x.signedUnits + y.signedUnits) := by
    rw [signedUnits_neg, signedUnits_neg]
    omega
  rw [add_eq hx hy, add_eq ((isFinite_neg_iff x).2 hx) ((isFinite_neg_iff y).2 hy), hsum]
  by_cases hzero : x.signedUnits + y.signedUnits = 0
  · rw [if_pos hzero, if_pos (Int.neg_eq_zero.2 hzero)]
    exact .of_isZero (isZero_ofMagnitude _) (isZero_ofMagnitude _)
  · have hsign : decide (-(x.signedUnits + y.signedUnits) < 0) =
        !decide (x.signedUnits + y.signedUnits < 0) := by
      rw [← decide_not, decide_eq_decide]
      omega
    rw [if_neg hzero, if_neg (mt Int.neg_eq_zero.1 hzero), hsign, Int.natAbs_neg,
      ← neg_ofMagnitude (nearest_lt_signWeight _ _)]
    exact .of_neg _

/-- A sum changes its sign with both summands. -/
theorem isNegation_add (x y : Binary32) : IsNegation (x.add y) (x.neg.add y.neg) := by
  obtain ⟨hinvalid, hadd⟩ | ⟨hvalid, hx, hadd⟩ | ⟨hvalid, hy, hadd⟩ | ⟨hx, hy⟩ := add_cases x y
  · rw [hadd, add_of_sumInvalid (sumInvalid_neg_iff.2 hinvalid)]
    exact .of_nan
  · rw [hadd, add_of_isInfinite_left (mt sumInvalid_neg_iff.1 hvalid) (by rw [isInfinite_neg, hx])]
    exact .of_neg x
  · rw [hadd, add_of_isInfinite_right (mt sumInvalid_neg_iff.1 hvalid) (by rw [isInfinite_neg, hy])]
    exact .of_neg y
  · exact isNegation_add_of_isFinite hx hy

/-! ## Both operations -/

variable {a b c : Binary32}

theorem mulAdd_of_productInvalid (h : ProductInvalid a b) : a.mulAdd b c = nan := by
  rw [mulAdd, add_of_sumInvalid]
  exact .inl (isNaN_mul_iff.2 h)

theorem isNegation_mulAdd (a b c : Binary32) :
    IsNegation (a.mulAdd b c) (a.neg.mulAdd b c.neg) := by
  by_cases hinvalid : ProductInvalid a b
  · rw [mulAdd_of_productInvalid hinvalid,
      mulAdd_of_productInvalid (productInvalid_neg_left.2 hinvalid)]
    exact .of_nan
  · rw [mulAdd, mulAdd, neg_mul hinvalid]
    exact isNegation_add (a.mul b) c

end

end ShaderIntake.Binary32
