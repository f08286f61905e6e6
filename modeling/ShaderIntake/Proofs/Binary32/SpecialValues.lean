import ShaderIntake.Proofs.Binary32.Rounding

/-!
# NaNs, infinities and zeros

Where products and sums are special, whatever their operands are, finite or not.

There are three groups.

* The kinds of numbers.  `kind_cases` says that a number is a NaN, an infinity or finite.
* Rounding to zero.  `RoundsTo.isZero_iff` is the threshold below which a rational rounds
  to a zero: half the smallest positive number, and the tie goes to zero, which is even.
* Products and sums.  `mul_cases` and `add_cases` say once what each can be, and the
  lemmas behind them read off when it is a NaN, an infinity or a zero, and with which sign.
-/

namespace ShaderIntake.Binary32

/-! ## Kinds of numbers -/

/-- A number is a NaN, an infinity or finite. -/
theorem kind_cases (x : Binary32) : x.isNaN = true ∨ x.isInfinite = true ∨ x.IsFinite := by
  rw [isNaN, isInfinite, IsFinite, decide_eq_true_eq, decide_eq_true_eq]
  omega

theorem not_isFinite_of_isNaN {x : Binary32} (h : x.isNaN = true) : ¬x.IsFinite := by
  intro hfinite
  rw [isNaN_eq_false hfinite] at h
  cases h

theorem not_isFinite_of_isInfinite {x : Binary32} (h : x.isInfinite = true) : ¬x.IsFinite := by
  intro hfinite
  rw [isInfinite_eq_false hfinite] at h
  cases h

theorem isFinite_of_isZero {x : Binary32} (h : x.isZero = true) : x.IsFinite := by
  rw [IsFinite, of_decide_eq_true h]
  decide

theorem isNaN_eq_false_of_isInfinite {x : Binary32} (h : x.isInfinite = true) :
    x.isNaN = false := by
  rw [isNaN, of_decide_eq_true h]
  decide

theorem isZero_eq_false_of_isInfinite {x : Binary32} (h : x.isInfinite = true) :
    x.isZero = false := by
  rw [isZero, of_decide_eq_true h]
  decide

theorem isNaN_nan : nan.isNaN = true := by decide

theorem isZero_nan : nan.isZero = false := by decide

theorem isInfinite_ofMagnitude (negative : Bool) :
    (ofMagnitude negative infinite).isInfinite = true := by
  rw [isInfinite, magnitude_ofMagnitude infinite_lt_signWeight, decide_eq_true rfl]

theorem isZero_ofMagnitude (negative : Bool) : (ofMagnitude negative 0).isZero = true := by
  rw [isZero, magnitude_ofMagnitude (by decide), decide_eq_true rfl]

theorem isZero_iff_absValue {x : Binary32} : x.isZero = true ↔ x.absValue = 0 := by
  rw [isZero, decide_eq_true_eq, ← absValue_zero, absValue_inj]
  rfl

theorem isZero_iff_signedUnits {x : Binary32} : x.isZero = true ↔ x.signedUnits = 0 := by
  rw [isZero_iff_absValue, ← abs_value, abs_eq_zero, value_eq_signedUnits,
    div_eq_zero_iff, Int.cast_eq_zero]
  simp

/-! ## Rounding to zero -/

/-- Up to here an absolute value rounds to zero: half the smallest positive number. -/
def underflowBound : ℚ := 2 ^ (-150 : ℤ)

theorem underflowBound_pos : 0 < underflowBound := by
  rw [underflowBound]
  positivity

/-- The smallest positive number. -/
def smallest : Binary32 := ofMagnitude false 1

theorem magnitude_smallest : smallest.magnitude = 1 :=
  magnitude_ofMagnitude (by decide)

theorem absValue_smallest : smallest.absValue = 2 * underflowBound := by
  rw [absValue_eq, magnitude_smallest, show units 1 = 1 from rfl, underflowBound]
  norm_num

theorem absValue_smallest_le {x : Binary32} (hx : x.isZero = false) :
    smallest.absValue ≤ x.absValue := by
  rw [isZero, decide_eq_false_iff_not] at hx
  rw [← not_lt, absValue_lt_iff, magnitude_smallest]
  omega

namespace RoundsTo

variable {q : ℚ} {x : Binary32} (h : RoundsTo q x)

include h

theorem le_underflowBound_of_isZero (hzero : x.isZero = true) : |q| ≤ underflowBound := by
  have hbound : |q| < overflowBound := by
    by_contra hnot
    have hinf := h.isInfinite (not_lt.1 hnot)
    rw [isZero_eq_false_of_isInfinite hinf] at hzero
    cases hzero
  have hdist := h.dist_absValue_le hbound (y := smallest) (by decide)
  rw [isZero_iff_absValue.1 hzero, absValue_smallest, zero_sub, abs_neg, abs_abs, le_abs] at hdist
  have hpos := underflowBound_pos
  obtain hbelow | habove := hdist
  · linarith
  · linarith

theorem isZero_of_le (hle : |q| ≤ underflowBound) : x.isZero = true := by
  by_contra hnot
  rw [Bool.not_eq_true] at hnot
  have hbound : |q| < overflowBound := by
    apply lt_of_le_of_lt hle
    rw [underflowBound, overflowBound]
    norm_num
  have hleast := absValue_smallest_le hnot
  have hdist := h.dist_absValue_le hbound (y := zero) (by decide)
  rw [absValue_zero, zero_sub, abs_neg, abs_abs] at hdist
  rw [absValue_smallest] at hleast
  -- Only the smallest positive number is left, at a tie with zero, and it is odd.
  have hupper := (abs_le.1 hdist).2
  have hq : |q| = underflowBound := by linarith
  have hvalue : x.absValue = smallest.absValue := by
    rw [absValue_smallest]
    linarith
  have hmagnitude : x.magnitude = 1 := by rw [absValue_inj.1 hvalue, magnitude_smallest]
  have htie : |zero.value - q| = |x.value - q| := by
    rw [value_zero, zero_sub, abs_neg, abs_value_sub h.negative_iff, hvalue, absValue_smallest, hq,
      two_mul, add_sub_cancel_right, abs_of_pos underflowBound_pos]
  have hne : zero.value ≠ x.value := by
    intro heq
    have habs : x.absValue = 0 := by rw [← abs_value, ← heq, value_zero, abs_zero]
    rw [isZero_iff_absValue.2 habs] at hnot
    cases hnot
  have heven := (h.isNearest hbound).even_of_tie zero (by decide) hne htie
  rw [fraction_mod_two, hmagnitude] at heven
  omega

/-- A rational rounds to a zero exactly up to half the smallest positive number. -/
theorem isZero_iff : x.isZero = true ↔ |q| ≤ underflowBound :=
  ⟨h.le_underflowBound_of_isZero, h.isZero_of_le⟩

/-- A rational rounds to an infinity exactly from the bound of overflow on. -/
theorem isInfinite_iff : x.isInfinite = true ↔ overflowBound ≤ |q| := by
  refine ⟨?_, h.isInfinite⟩
  intro hinf
  by_contra hnot
  exact not_isFinite_of_isInfinite hinf (h.isNearest (not_le.1 hnot)).finite

theorem isNaN_eq_false : x.isNaN = false := by
  obtain hfinite | hinf := h.isFinite_or_isInfinite
  · exact Binary32.isNaN_eq_false hfinite
  · exact isNaN_eq_false_of_isInfinite hinf

end RoundsTo

/-! ## Products -/

section Products

/-- The product is no number: a factor is none, or one is zero and the other infinite. -/
def ProductInvalid (x y : Binary32) : Prop :=
  x.isNaN = true ∨ y.isNaN = true ∨ (x.isZero = true ∧ y.isInfinite = true) ∨
    (x.isInfinite = true ∧ y.isZero = true)

/-- The product is beyond the finite numbers: a factor is infinite, or both are finite and
their exact product is too large. -/
def ProductOverflows (x y : Binary32) : Prop :=
  x.isInfinite = true ∨ y.isInfinite = true ∨
    (x.IsFinite ∧ y.IsFinite ∧ overflowBound ≤ |x.value * y.value|)

/-- The product is zero, or so small that it becomes zero. -/
def ProductVanishes (x y : Binary32) : Prop :=
  x.IsFinite ∧ y.IsFinite ∧ |x.value * y.value| ≤ underflowBound

variable {x y : Binary32}

theorem not_productInvalid_of_isFinite (hx : x.IsFinite) (hy : y.IsFinite) :
    ¬ProductInvalid x y := by
  rw [ProductInvalid, isNaN_eq_false hx, isNaN_eq_false hy, isInfinite_eq_false hx,
    isInfinite_eq_false hy]
  simp

/-- What a product can be: no number, an infinity because a factor is one, or the product
of two finite numbers, which `roundsTo_mul` is about. -/
theorem mul_cases (x y : Binary32) :
    (ProductInvalid x y ∧ x.mul y = nan) ∨
      (¬ProductInvalid x y ∧ (x.isInfinite = true ∨ y.isInfinite = true) ∧
        x.mul y = ofMagnitude (x.negative != y.negative) infinite) ∨
      (x.IsFinite ∧ y.IsFinite) := by
  by_cases hinvalid : ProductInvalid x y
  · refine .inl ⟨hinvalid, ?_⟩
    obtain hx | hy | ⟨hx, hy⟩ | ⟨hx, hy⟩ := hinvalid
    · simp [mul, hx]
    · simp [mul, hy]
    · simp [mul, hx, hy]
    · simp [mul, hx, hy]
  · right
    have hnumbers := hinvalid
    simp only [ProductInvalid, not_or, not_and, Bool.not_eq_true] at hnumbers
    obtain ⟨hxnan, hynan, hzeroInf, hinfZero⟩ := hnumbers
    obtain hx | hx | hx := kind_cases x
    · rw [hxnan] at hx
      cases hx
    · refine .inl ⟨hinvalid, .inl hx, ?_⟩
      simp [mul, hxnan, hynan, hx, hinfZero hx, isZero_eq_false_of_isInfinite hx]
    · obtain hy | hy | hy := kind_cases y
      · rw [hynan] at hy
        cases hy
      · refine .inl ⟨hinvalid, .inr hy, ?_⟩
        have hxzero : x.isZero = false := by
          rw [← Bool.not_eq_true]
          intro hzero
          rw [hzeroInf hzero] at hy
          cases hy
        simp [mul, hxnan, hynan, hy, hxzero, isZero_eq_false_of_isInfinite hy]
      · exact .inr ⟨hx, hy⟩

theorem isNaN_mul_iff : (x.mul y).isNaN = true ↔ ProductInvalid x y := by
  obtain ⟨hinvalid, hmul⟩ | ⟨hvalid, _, hmul⟩ | ⟨hx, hy⟩ := mul_cases x y
  · rw [hmul]
    exact iff_of_true isNaN_nan hinvalid
  · rw [hmul, isNaN_eq_false_of_isInfinite (isInfinite_ofMagnitude _)]
    exact iff_of_false Bool.false_ne_true hvalid
  · rw [(roundsTo_mul hx hy).isNaN_eq_false]
    exact iff_of_false Bool.false_ne_true (not_productInvalid_of_isFinite hx hy)

theorem not_productInvalid_of_isNaN_eq_false (h : (x.mul y).isNaN = false) :
    ¬ProductInvalid x y := by
  rw [← isNaN_mul_iff, h]
  exact Bool.false_ne_true

theorem isInfinite_mul_iff (hvalid : ¬ProductInvalid x y) :
    (x.mul y).isInfinite = true ↔ ProductOverflows x y := by
  obtain ⟨hinvalid, _⟩ | ⟨_, hinf, hmul⟩ | ⟨hx, hy⟩ := mul_cases x y
  · exact absurd hinvalid hvalid
  · rw [hmul]
    refine iff_of_true (isInfinite_ofMagnitude _) ?_
    obtain hx | hy := hinf
    · exact .inl hx
    · exact .inr (.inl hy)
  · rw [(roundsTo_mul hx hy).isInfinite_iff, ProductOverflows, isInfinite_eq_false hx,
      isInfinite_eq_false hy]
    simp [hx, hy]

theorem isZero_mul_iff : (x.mul y).isZero = true ↔ ProductVanishes x y := by
  obtain ⟨hinvalid, hmul⟩ | ⟨_, hinf, hmul⟩ | ⟨hx, hy⟩ := mul_cases x y
  · rw [hmul, isZero_nan]
    refine iff_of_false Bool.false_ne_true ?_
    intro hvanishes
    exact not_productInvalid_of_isFinite hvanishes.1 hvanishes.2.1 hinvalid
  · rw [hmul, isZero_eq_false_of_isInfinite (isInfinite_ofMagnitude _)]
    refine iff_of_false Bool.false_ne_true ?_
    intro hvanishes
    obtain hx | hy := hinf
    · exact not_isFinite_of_isInfinite hx hvanishes.1
    · exact not_isFinite_of_isInfinite hy hvanishes.2.1
  · rw [(roundsTo_mul hx hy).isZero_iff, ProductVanishes]
    simp [hx, hy]

/-- A product that is a number is negative exactly if the signs of the factors differ, also
where it is zero. -/
theorem negative_mul (hvalid : ¬ProductInvalid x y) :
    (x.mul y).negative = (x.negative != y.negative) := by
  obtain ⟨hinvalid, _⟩ | ⟨_, _, hmul⟩ | ⟨hx, hy⟩ := mul_cases x y
  · exact absurd hinvalid hvalid
  · rw [hmul, negative_ofMagnitude infinite_lt_signWeight]
  · rw [mul_eq hx hy, negative_ofMagnitude (nearest_lt_signWeight _ _)]

end Products

/-! ## Sums -/

section Sums

/-- The sum is no number: a summand is none, or both are infinities of opposite signs. -/
def SumInvalid (x y : Binary32) : Prop :=
  x.isNaN = true ∨ y.isNaN = true ∨
    (x.isInfinite = true ∧ y.isInfinite = true ∧ x.negative ≠ y.negative)

variable {x y : Binary32}

theorem not_sumInvalid_of_isFinite (hx : x.IsFinite) (hy : y.IsFinite) : ¬SumInvalid x y := by
  rw [SumInvalid, isNaN_eq_false hx, isNaN_eq_false hy, isInfinite_eq_false hx]
  simp

theorem add_of_sumInvalid (h : SumInvalid x y) : x.add y = nan := by
  obtain hx | hy | ⟨hx, hy, hsign⟩ := h
  · simp [add, hx]
  · simp [add, hy]
  · simp [add, hx, hy, hsign]

/-- What a sum can be: no number, the first summand or the second because it is infinite,
or the sum of two finite numbers, which `roundsTo_add` is about. -/
theorem add_cases (x y : Binary32) :
    (SumInvalid x y ∧ x.add y = nan) ∨
      (¬SumInvalid x y ∧ x.isInfinite = true ∧ x.add y = x) ∨
      (¬SumInvalid x y ∧ y.isInfinite = true ∧ x.add y = y) ∨
      (x.IsFinite ∧ y.IsFinite) := by
  by_cases hinvalid : SumInvalid x y
  · exact .inl ⟨hinvalid, add_of_sumInvalid hinvalid⟩
  · right
    have hnumbers := hinvalid
    simp only [SumInvalid, not_or, not_and, Bool.not_eq_true, Decidable.not_not] at hnumbers
    obtain ⟨hxnan, hynan, hsign⟩ := hnumbers
    obtain hx | hx | hx := kind_cases x
    · rw [hxnan] at hx
      cases hx
    · refine .inl ⟨hinvalid, hx, ?_⟩
      cases hy : y.isInfinite with
      | false => simp [add, hxnan, hynan, hx, hy]
      | true => simp [add, hxnan, hynan, hx, hy, hsign hx hy]
    · obtain hy | hy | hy := kind_cases y
      · rw [hynan] at hy
        cases hy
      · refine .inr (.inl ⟨hinvalid, hy, ?_⟩)
        simp [add, hxnan, hynan, hy, isInfinite_eq_false hx]
      · exact .inr (.inr ⟨hx, hy⟩)

theorem isNaN_add_iff : (x.add y).isNaN = true ↔ SumInvalid x y := by
  obtain ⟨hinvalid, hadd⟩ | ⟨hvalid, hx, hadd⟩ | ⟨hvalid, hy, hadd⟩ | ⟨hx, hy⟩ := add_cases x y
  · rw [hadd]
    exact iff_of_true isNaN_nan hinvalid
  · rw [hadd, isNaN_eq_false_of_isInfinite hx]
    exact iff_of_false Bool.false_ne_true hvalid
  · rw [hadd, isNaN_eq_false_of_isInfinite hy]
    exact iff_of_false Bool.false_ne_true hvalid
  · rw [(roundsTo_add hx hy).isNaN_eq_false]
    exact iff_of_false Bool.false_ne_true (not_sumInvalid_of_isFinite hx hy)

theorem not_sumInvalid_of_isNaN_eq_false (h : (x.add y).isNaN = false) : ¬SumInvalid x y := by
  rw [← isNaN_add_iff, h]
  exact Bool.false_ne_true

/-- Two infinities with a sum are the same. -/
theorem eq_of_isInfinite (hvalid : ¬SumInvalid x y) (hx : x.isInfinite = true)
    (hy : y.isInfinite = true) : x = y := by
  apply eq_of_magnitude_eq
  · by_contra hsign
    exact hvalid (.inr (.inr ⟨hx, hy, hsign⟩))
  · rw [of_decide_eq_true hx, of_decide_eq_true hy]

/-- A sum that is a number is the summand that is infinite. -/
theorem add_of_isInfinite_left (hvalid : ¬SumInvalid x y) (hx : x.isInfinite = true) :
    x.add y = x := by
  obtain ⟨hinvalid, _⟩ | ⟨_, _, hadd⟩ | ⟨_, hy, hadd⟩ | ⟨hfinite, _⟩ := add_cases x y
  · exact absurd hinvalid hvalid
  · exact hadd
  · rw [hadd, eq_of_isInfinite hvalid hx hy]
  · exact absurd hfinite (not_isFinite_of_isInfinite hx)

theorem add_of_isInfinite_right (hvalid : ¬SumInvalid x y) (hy : y.isInfinite = true) :
    x.add y = y := by
  obtain ⟨hinvalid, _⟩ | ⟨_, hx, hadd⟩ | ⟨_, _, hadd⟩ | ⟨_, hfinite⟩ := add_cases x y
  · exact absurd hinvalid hvalid
  · rw [hadd, eq_of_isInfinite hvalid hx hy]
  · exact hadd
  · exact absurd hfinite (not_isFinite_of_isInfinite hy)

/-- A sum is zero only where it is exactly zero: no sum of two numbers that is not zero is
small enough to become zero. -/
theorem isZero_add_iff :
    (x.add y).isZero = true ↔ x.IsFinite ∧ y.IsFinite ∧ x.signedUnits + y.signedUnits = 0 := by
  constructor
  · intro hzero
    obtain ⟨_, hadd⟩ | ⟨_, hx, hadd⟩ | ⟨_, hy, hadd⟩ | ⟨hx, hy⟩ := add_cases x y
    · rw [hadd, isZero_nan] at hzero
      cases hzero
    · rw [hadd, isZero_eq_false_of_isInfinite hx] at hzero
      cases hzero
    · rw [hadd, isZero_eq_false_of_isInfinite hy] at hzero
      cases hzero
    · refine ⟨hx, hy, ?_⟩
      -- The sum is a whole number of units of `2 ^ (-149)`, and less than half a unit.
      have hsmall := (roundsTo_add hx hy).isZero_iff.1 hzero
      have hunit : (0 : ℚ) < 2 ^ 149 := by positivity
      have hhalf : underflowBound * 2 ^ 149 < 1 := by
        rw [underflowBound]
        norm_num
      rw [value_eq_signedUnits, value_eq_signedUnits, ← add_div, abs_div, abs_of_pos hunit,
        div_le_iff₀ hunit] at hsmall
      have hlt : |((x.signedUnits + y.signedUnits : ℤ) : ℚ)| < (1 : ℤ) := by
        push_cast
        linarith
      rw [← Int.cast_abs, Int.cast_lt] at hlt
      exact Int.abs_lt_one_iff.1 hlt
  · rintro ⟨hx, hy, hsum⟩
    rw [add_eq hx hy, if_pos hsum]
    exact isZero_ofMagnitude _

/-- A sum that is zero is negative exactly as the sum of two negative zeros. -/
theorem negative_add_iff (hzero : (x.add y).isZero = true) :
    (x.add y).negative = true ↔
      (x.isZero = true ∧ x.negative = true) ∧ y.isZero = true ∧ y.negative = true := by
  obtain ⟨hx, hy, hsum⟩ := isZero_add_iff.1 hzero
  rw [add_eq hx hy, if_pos hsum, negative_ofMagnitude (by decide), Bool.and_eq_true]
  constructor
  · rintro ⟨hxneg, hyneg⟩
    have hxle : x.signedUnits ≤ 0 := by
      rw [signedUnits, if_pos hxneg]
      omega
    have hyle : y.signedUnits ≤ 0 := by
      rw [signedUnits, if_pos hyneg]
      omega
    refine ⟨⟨?_, hxneg⟩, ?_, hyneg⟩
    · rw [isZero_iff_signedUnits]
      omega
    · rw [isZero_iff_signedUnits]
      omega
  · rintro ⟨⟨_, hxneg⟩, _, hyneg⟩
    exact ⟨hxneg, hyneg⟩

end Sums

/-! ## The two zeros -/

/-- A zero is known by its sign. -/
theorem eq_of_isZero {x y : Binary32} (hx : x.isZero = true) (hy : y.isZero = true)
    (hsign : x.negative = y.negative) : x = y := by
  apply eq_of_magnitude_eq hsign
  rw [of_decide_eq_true hx, of_decide_eq_true hy]

theorem eq_zero_iff {x : Binary32} : x = zero ↔ x.isZero = true ∧ x.negative = false := by
  constructor
  · rintro rfl
    decide
  · rintro ⟨hzero, hsign⟩
    exact eq_of_isZero hzero (by decide) hsign

theorem eq_neg_zero_iff {x : Binary32} :
    x = zero.neg ↔ x.isZero = true ∧ x.negative = true := by
  constructor
  · rintro rfl
    decide
  · rintro ⟨hzero, hsign⟩
    exact eq_of_isZero hzero (by decide) hsign

end ShaderIntake.Binary32
