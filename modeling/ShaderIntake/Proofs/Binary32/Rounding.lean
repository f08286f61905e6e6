import ShaderIntake.Proofs.Binary32.Nearest

/-!
# Correct rounding

The numbers that finite patterns stand for (`value`), and what it means that a pattern is
a rational number rounded to single precision (`RoundsTo`): the nearest finite number, of
two the one with the even significand, with subnormal numbers among the candidates, and
the infinity of its sign for a number that is too large.

`RoundsTo` looks at all finite patterns and does not mention how rounding is done.  It
leaves open only the sign of a rounded zero: `RoundsTo.eq` says that every other number
has one rounding, and `RoundsTo.value_eq` that the roundings of a number have one value.

`roundsTo_ofMagnitude` is where `nearest` meets it, and `roundsTo_mul` and `roundsTo_add`
say that product and sum are the exact ones, rounded.
-/

namespace ShaderIntake.Binary32

/-! ## Values -/

/-- Neither an infinity nor a NaN. -/
def IsFinite (x : Binary32) : Prop :=
  x.magnitude < infinite

instance (x : Binary32) : Decidable x.IsFinite :=
  inferInstanceAs (Decidable (_ < _))

/-- The eight bits behind the sign. -/
def exponentField (x : Binary32) : ℕ :=
  x.magnitude / 2 ^ 23

/-- The last twenty-three bits. -/
def fraction (x : Binary32) : ℕ :=
  x.magnitude % 2 ^ 23

/-- The absolute value of a finite pattern.  A leading one is understood in front of the
fraction unless the exponent field is zero. -/
def absValue (x : Binary32) : ℚ :=
  if x.exponentField = 0 then x.fraction * 2 ^ (-149 : ℤ)
  else (2 ^ 23 + x.fraction) * 2 ^ ((x.exponentField : ℤ) - 150)

/-- The number that a finite pattern stands for. -/
def value (x : Binary32) : ℚ :=
  if x.negative then -x.absValue else x.absValue

/-- From here on an absolute value is too large: half a step behind the largest finite
number. -/
def overflowBound : ℚ := 2 ^ 128 - 2 ^ 103

/-! ## Rounding to nearest -/

/-- `x` is the finite number nearest to `q`, and has an even significand if another one
is equally near. -/
structure IsNearest (q : ℚ) (x : Binary32) : Prop where
  finite : x.IsFinite
  dist_le : ∀ y : Binary32, y.IsFinite → |x.value - q| ≤ |y.value - q|
  even_of_tie : ∀ y : Binary32, y.IsFinite → y.value ≠ x.value →
    |y.value - q| = |x.value - q| → x.fraction % 2 = 0

/-- `x` is `q` rounded to single precision. -/
structure RoundsTo (q : ℚ) (x : Binary32) : Prop where
  negative_iff : q ≠ 0 → (x.negative = true ↔ q < 0)
  isNearest : |q| < overflowBound → IsNearest q x
  isInfinite : overflowBound ≤ |q| → x.isInfinite = true

/-! ## Patterns by sign and magnitude -/

section Pattern

variable {negative : Bool} {m : ℕ} (hm : m < signWeight)

include hm

theorem toNat_ofMagnitude :
    (ofMagnitude negative m).bits.toNat = if negative then signWeight + m else m := by
  have hlt : (if negative then signWeight + m else m) < UInt32.size := by
    rw [signWeight] at hm ⊢
    rw [UInt32.size]
    split
    · omega
    · omega
  rw [ofMagnitude, UInt32.toNat_ofNat_of_lt' hlt]

theorem negative_ofMagnitude : (ofMagnitude negative m).negative = negative := by
  rw [Binary32.negative, toNat_ofMagnitude hm]
  cases negative with
  | false => simpa using hm
  | true => simp

theorem magnitude_ofMagnitude : (ofMagnitude negative m).magnitude = m := by
  rw [magnitude, toNat_ofMagnitude hm]
  cases negative with
  | false => exact Nat.mod_eq_of_lt hm
  | true => rw [if_pos rfl, Nat.add_mod_left, Nat.mod_eq_of_lt hm]

end Pattern

/-- A pattern is its sign and its magnitude. -/
theorem eq_of_magnitude_eq {x y : Binary32} (hsign : x.negative = y.negative)
    (hmagnitude : x.magnitude = y.magnitude) : x = y := by
  have hx := x.bits.toNat_lt
  have hy := y.bits.toNat_lt
  have hbits : x.bits.toNat = y.bits.toNat := by
    rw [negative, negative, decide_eq_decide, signWeight] at hsign
    rw [magnitude, magnitude, signWeight] at hmagnitude
    omega
  cases x
  cases y
  rw [mk.injEq]
  exact UInt32.toNat_inj.1 hbits

theorem infinite_lt_signWeight : infinite < signWeight := by decide

theorem nearest_lt_signWeight (n d : ℕ) : nearest n d < signWeight :=
  Nat.lt_of_le_of_lt (Nat.min_le_left _ _) infinite_lt_signWeight

/-! ## Values in units -/

theorem absValue_eq (x : Binary32) : x.absValue = units x.magnitude / 2 ^ 149 := by
  rw [absValue, exponentField, fraction, units, binadeSize, nat_pow_two]
  by_cases hsmall : x.magnitude < 0x800000
  · rw [if_pos (by omega), if_pos hsmall, Nat.mod_eq_of_lt (by omega), zpow_neg]
    rfl
  · have hexponent : ((x.magnitude / 2 ^ 23 : ℕ) : ℤ) - 150 =
        ((x.magnitude / 0x800000 - 1 : ℕ) : ℤ) - (149 : ℕ) := by omega
    rw [if_neg (by omega), if_neg hsmall, hexponent, zpow_sub₀ two_ne_zero, zpow_natCast,
      zpow_natCast]
    push_cast
    ring

theorem absValue_nonneg (x : Binary32) : 0 ≤ x.absValue := by
  rw [absValue_eq]
  positivity

theorem abs_value (x : Binary32) : |x.value| = x.absValue := by
  rw [value]
  split
  · rw [abs_neg, abs_of_nonneg x.absValue_nonneg]
  · exact abs_of_nonneg x.absValue_nonneg

theorem absValue_zero : zero.absValue = 0 := by
  rw [absValue_eq, show units zero.magnitude = 0 from rfl, Nat.cast_zero, zero_div]

theorem value_zero : zero.value = 0 := by
  rw [← abs_eq_zero, abs_value, absValue_zero]

theorem value_eq_signedUnits (x : Binary32) : x.value = x.signedUnits / 2 ^ 149 := by
  rw [value, signedUnits, absValue_eq]
  split
  · push_cast
    ring
  · push_cast
    ring

/-- A number with the sign of `q` is as far from it as their absolute values are apart. -/
theorem abs_value_sub {x : Binary32} {q : ℚ} (hsign : q ≠ 0 → (x.negative = true ↔ q < 0)) :
    |x.value - q| = |x.absValue - abs q| := by
  by_cases hq : q = 0
  · rw [hq, sub_zero, abs_zero, sub_zero, abs_value, abs_of_nonneg x.absValue_nonneg]
  · rw [value]
    obtain hneg | hpos := lt_or_gt_of_ne hq
    · rw [if_pos ((hsign hq).2 hneg), abs_of_neg hneg, ← abs_neg]
      congr 1
      ring
    · rw [if_neg (mt (hsign hq).1 (not_lt.2 hpos.le)), abs_of_pos hpos]

/-- No other number is nearer to `q` than its absolute value is to that of `q`. -/
theorem abs_absValue_sub_le (y : Binary32) (q : ℚ) : |y.absValue - abs q| ≤ |y.value - q| := by
  rw [← abs_value]
  exact abs_abs_sub_abs_le_abs_sub y.value q

theorem fraction_mod_two (x : Binary32) : x.fraction % 2 = x.magnitude % 2 := by
  rw [fraction]
  omega

theorem absValue_lt_iff {x y : Binary32} :
    x.absValue < y.absValue ↔ x.magnitude < y.magnitude := by
  rw [absValue_eq, absValue_eq, div_lt_div_iff_of_pos_right (by positivity), Nat.cast_lt,
    units_strictMono.lt_iff_lt]

theorem absValue_inj {x y : Binary32} : x.absValue = y.absValue ↔ x.magnitude = y.magnitude := by
  rw [absValue_eq, absValue_eq, div_left_inj' (by positivity), Nat.cast_inj,
    units_strictMono.injective.eq_iff]

/-! ## What `nearest` gives -/

section OfMagnitude

variable {q : ℚ} {n d : ℕ} (hd : 0 < d) (hq : |q| = n / d / 2 ^ 149)

include hd hq

/-- The bound of overflow, in units. -/
theorem overflowBound_le_iff :
    overflowBound ≤ |q| ↔ infinite ≤ rounded n d + shift n d * binadeSize := by
  have hbound : overflowBound = (0x1000000 - 1 / 2) * 2 ^ 253 / 2 ^ 149 := by
    rw [overflowBound]
    norm_num
  rw [infinite_le_rounded_iff n hd, hq, hbound, div_le_div_iff_of_pos_right (by positivity)]

omit hd in
/-- A distance of absolute values in units. -/
theorem dist_absValue (x : Binary32) :
    |x.absValue - abs q| = |(units x.magnitude : ℚ) - n / d| / 2 ^ 149 := by
  have hunit : (0 : ℚ) < 2 ^ 149 := by positivity
  rw [absValue_eq, hq, ← sub_div, abs_div, abs_of_pos hunit]

variable {x : Binary32} (hmagnitude : x.magnitude = rounded n d + shift n d * binadeSize)
  (hsign : q ≠ 0 → (x.negative = true ↔ q < 0))

include hmagnitude hsign

theorem dist_value_le (y : Binary32) : |x.value - q| ≤ |y.value - q| := by
  calc |x.value - q| = |(units x.magnitude : ℚ) - n / d| / 2 ^ 149 := by
        rw [abs_value_sub hsign, dist_absValue hq]
    _ ≤ |(units y.magnitude : ℚ) - n / d| / 2 ^ 149 := by
        rw [hmagnitude]
        exact div_le_div_of_nonneg_right (dist_rounded_le n hd y.magnitude) (by positivity)
    _ ≤ |y.value - q| := by
        rw [← dist_absValue hq]
        exact abs_absValue_sub_le y q

/-- Of two numbers equally near, opposite ones apart, the magnitudes are equally near. -/
theorem even_of_tie_units {y : Binary32} (hne : units y.magnitude ≠ units x.magnitude)
    (htie : |y.value - q| = |x.value - q|) : x.fraction % 2 = 0 := by
  have hunit : (0 : ℚ) < 2 ^ 149 := by positivity
  rw [fraction_mod_two, hmagnitude]
  rw [hmagnitude] at hne
  apply rounded_even_of_tie n hd hne
  apply le_antisymm
  · rw [← div_le_div_iff_of_pos_right hunit, ← dist_absValue hq, ← hmagnitude,
      ← dist_absValue hq, ← abs_value_sub hsign, ← htie]
    exact abs_absValue_sub_le y q
  · exact dist_rounded_le n hd y.magnitude

/-- Two opposite numbers are equally near to zero alone, and there zero is nearer. -/
theorem value_eq_of_tie_of_units_eq {y : Binary32} (hunits : units y.magnitude = units x.magnitude)
    (htie : |y.value - q| = |x.value - q|) : y.value = x.value := by
  have habs : |y.value| = |x.value| := by
    rw [abs_value, abs_value, absValue_eq, absValue_eq, hunits]
  obtain hsame | hopposite := abs_eq_abs.1 habs
  · exact hsame
  rw [hopposite] at htie ⊢
  obtain hzero | hzero := abs_eq_abs.1 htie
  · linarith
  · have hq0 : q = 0 := by linarith
    have hle := dist_value_le hd hq hmagnitude hsign zero
    rw [hq0, sub_zero, sub_zero, abs_value zero, absValue_zero, abs_nonpos_iff] at hle
    rw [hle, neg_zero]

end OfMagnitude

/-- The magnitude nearest to the absolute value of `q`, with the sign of `q`, is `q`
rounded. -/
theorem roundsTo_ofMagnitude {q : ℚ} {n d : ℕ} (hd : 0 < d) (hq : |q| = n / d / 2 ^ 149)
    {negative : Bool} (hsign : q ≠ 0 → (negative = true ↔ q < 0)) :
    RoundsTo q (ofMagnitude negative (nearest n d)) := by
  have hlt := nearest_lt_signWeight n d
  have hsign' : q ≠ 0 → ((ofMagnitude negative (nearest n d)).negative = true ↔ q < 0) := by
    rw [negative_ofMagnitude hlt]
    exact hsign
  refine ⟨hsign', ?_, ?_⟩
  · intro hbound
    have hinside : rounded n d + shift n d * binadeSize < infinite := by
      rw [← Nat.not_le, ← overflowBound_le_iff hd hq]
      exact not_le.2 hbound
    have hmagnitude : (ofMagnitude negative (nearest n d)).magnitude =
        rounded n d + shift n d * binadeSize := by
      rw [magnitude_ofMagnitude hlt, nearest_eq, Nat.min_eq_right hinside.le]
    refine ⟨?_, ?_, ?_⟩
    · rw [IsFinite, hmagnitude]
      exact hinside
    · intro y _
      exact dist_value_le hd hq hmagnitude hsign' y
    · intro y _ hne htie
      by_cases hunits : units y.magnitude = units (ofMagnitude negative (nearest n d)).magnitude
      · exact absurd (value_eq_of_tie_of_units_eq hd hq hmagnitude hsign' hunits htie) hne
      · exact even_of_tie_units hd hq hmagnitude hsign' hunits htie
  · intro hbound
    rw [overflowBound_le_iff hd hq] at hbound
    rw [isInfinite, magnitude_ofMagnitude hlt, nearest_eq, Nat.min_eq_left hbound,
      decide_eq_true rfl]

/-! ## One rounding -/

/-- What lies between two points is nearer to the point halfway between them. -/
theorem abs_sub_lt_of_between {a b c t : ℚ} (hac : a < c) (hcb : c < b)
    (htie : |a - t| = |b - t|) : |c - t| < |a - t| := by
  obtain hsame | hopposite := abs_eq_abs.1 htie
  · linarith
  · rw [abs_of_neg (by linarith : a - t < 0), abs_lt]
    constructor
    · linarith
    · linarith

namespace RoundsTo

variable {q : ℚ} {x y : Binary32}

/-- A rounded number is finite or an infinity. -/
theorem isFinite_or_isInfinite (h : RoundsTo q x) : x.IsFinite ∨ x.isInfinite = true := by
  obtain hlt | hle := lt_or_ge |q| overflowBound
  · exact .inl (h.isNearest hlt).finite
  · exact .inr (h.isInfinite hle)

/-- Zero rounds to a zero. -/
theorem magnitude_eq_zero (h : RoundsTo 0 x) : x.magnitude = 0 := by
  have hbound : |(0 : ℚ)| < overflowBound := by
    rw [abs_zero, overflowBound]
    norm_num
  have hle := (h.isNearest hbound).dist_le zero (by decide)
  rw [sub_zero, sub_zero, abs_value, abs_value] at hle
  exact absValue_inj.1 (le_antisymm hle (absValue_zero.le.trans x.absValue_nonneg))

/-- The sign apart, no finite number is nearer. -/
theorem dist_absValue_le (hx : RoundsTo q x) (hbound : |q| < overflowBound) (hy : y.IsFinite) :
    |x.absValue - abs q| ≤ |y.absValue - abs q| := by
  have hrange : y.magnitude < signWeight := Nat.lt_trans hy infinite_lt_signWeight
  have hmagnitude : (ofMagnitude x.negative y.magnitude).magnitude = y.magnitude :=
    magnitude_ofMagnitude hrange
  have hsign : q ≠ 0 → ((ofMagnitude x.negative y.magnitude).negative = true ↔ q < 0) := by
    rw [negative_ofMagnitude hrange]
    exact hx.negative_iff
  have hle := (hx.isNearest hbound).dist_le (ofMagnitude x.negative y.magnitude)
    (by rw [IsFinite, hmagnitude]; exact hy)
  rw [abs_value_sub hx.negative_iff, abs_value_sub hsign, absValue_inj.2 hmagnitude] at hle
  exact hle

/-- Of two neighbours equally near only one is even, and any two others have a nearer
number between them. -/
theorem magnitude_le (hx : RoundsTo q x) (hy : RoundsTo q y) : y.magnitude ≤ x.magnitude := by
  by_contra hnot
  have hlt : x.magnitude < y.magnitude := Nat.lt_of_not_le hnot
  obtain hbound | hbound := lt_or_ge |q| overflowBound
  · have hxn := hx.isNearest hbound
    have hyn := hy.isNearest hbound
    have htie : |x.value - q| = |y.value - q| :=
      le_antisymm (hxn.dist_le y hyn.finite) (hyn.dist_le x hxn.finite)
    have hne : y.value ≠ x.value := by
      intro h
      have habs : y.absValue = x.absValue := by rw [← abs_value, h, abs_value]
      exact hlt.ne' (absValue_inj.1 habs)
    have hxeven := hxn.even_of_tie y hyn.finite hne htie.symm
    have hyeven := hyn.even_of_tie x hxn.finite hne.symm htie
    rw [fraction_mod_two] at hxeven hyeven
    have hfinite : x.magnitude + 1 < infinite := by
      have hy_finite : y.magnitude < infinite := hyn.finite
      omega
    -- Both are even, so the number behind `x` lies strictly between them.
    obtain ⟨z, hz⟩ : ∃ z : Binary32, z.magnitude = x.magnitude + 1 :=
      ⟨ofMagnitude false (x.magnitude + 1),
        magnitude_ofMagnitude (hfinite.trans infinite_lt_signWeight)⟩
    have hzdist := hx.dist_absValue_le hbound (y := z) (by rw [IsFinite, hz]; exact hfinite)
    rw [abs_value_sub hx.negative_iff, abs_value_sub hy.negative_iff] at htie
    refine absurd (abs_sub_lt_of_between ?_ ?_ htie) (not_lt.2 hzdist)
    · rw [absValue_lt_iff, hz]
      omega
    · rw [absValue_lt_iff, hz]
      omega
  · have hxi := of_decide_eq_true (hx.isInfinite hbound)
    have hyi := of_decide_eq_true (hy.isInfinite hbound)
    omega

theorem magnitude_eq (hx : RoundsTo q x) (hy : RoundsTo q y) : x.magnitude = y.magnitude :=
  le_antisymm (hy.magnitude_le hx) (hx.magnitude_le hy)

/-- A number that is not zero has one rounding. -/
theorem eq (hx : RoundsTo q x) (hy : RoundsTo q y) (hq : q ≠ 0) : x = y := by
  apply eq_of_magnitude_eq
  · rw [Bool.eq_iff_iff, hx.negative_iff hq, hy.negative_iff hq]
  · exact hx.magnitude_eq hy

/-- Two roundings of one number are the same number, and if the number is zero they may
differ in their sign. -/
theorem value_eq (hx : RoundsTo q x) (hy : RoundsTo q y) : x.value = y.value := by
  by_cases hq : q = 0
  · subst hq
    have hx0 : x.absValue = 0 := absValue_zero ▸ absValue_inj.2 hx.magnitude_eq_zero
    have hy0 : y.absValue = 0 := absValue_zero ▸ absValue_inj.2 hy.magnitude_eq_zero
    rw [← abs_value, abs_eq_zero] at hx0 hy0
    rw [hx0, hy0]
  · rw [hx.eq hy hq]

end RoundsTo

/-! ## Products and sums -/

section Operations

variable {x y : Binary32} (hx : x.IsFinite) (hy : y.IsFinite)

theorem isNaN_eq_false (hx : x.IsFinite) : x.isNaN = false :=
  decide_eq_false (Nat.not_lt.2 (Nat.le_of_lt hx))

theorem isInfinite_eq_false (hx : x.IsFinite) : x.isInfinite = false :=
  decide_eq_false (Nat.ne_of_lt hx)

include hx hy

theorem mul_eq : x.mul y = ofMagnitude (x.negative != y.negative)
    (nearest (units x.magnitude * units y.magnitude) unitsPerOne) := by
  rw [mul, isNaN_eq_false hx, isNaN_eq_false hy, isInfinite_eq_false hx, isInfinite_eq_false hy]
  rfl

theorem add_eq : x.add y =
    if x.signedUnits + y.signedUnits = 0 then ofMagnitude (x.negative && y.negative) 0
    else ofMagnitude (decide (x.signedUnits + y.signedUnits < 0))
      (nearest (x.signedUnits + y.signedUnits).natAbs 1) := by
  rw [add, isNaN_eq_false hx, isNaN_eq_false hy, isInfinite_eq_false hx, isInfinite_eq_false hy]
  rfl

omit hx hy in
/-- A product that is not zero is negative exactly when the signs of its factors differ. -/
theorem negative_mul_iff (hne : x.value * y.value ≠ 0) :
    (x.negative != y.negative) = true ↔ x.value * y.value < 0 := by
  have hxabs : 0 < x.absValue := by
    rw [← abs_value]
    exact abs_pos.2 (left_ne_zero_of_mul hne)
  have hyabs : 0 < y.absValue := by
    rw [← abs_value]
    exact abs_pos.2 (right_ne_zero_of_mul hne)
  have hpos : 0 < x.absValue * y.absValue := mul_pos hxabs hyabs
  rw [value, value]
  cases x.negative with
  | false =>
    cases y.negative with
    | false => simpa using hpos.le
    | true => simpa using hpos
  | true =>
    cases y.negative with
    | false => simpa using hpos
    | true => simpa using hpos.le

/-- The product of two finite numbers is the exact product, rounded. -/
theorem roundsTo_mul : RoundsTo (x.value * y.value) (x.mul y) := by
  rw [mul_eq hx hy]
  apply roundsTo_ofMagnitude (d := unitsPerOne) (by decide)
  · rw [abs_mul, abs_value, abs_value, absValue_eq, absValue_eq, unitsPerOne, nat_pow_two]
    push_cast
    ring
  · exact negative_mul_iff

/-- The sum of two finite numbers is the exact sum, rounded. -/
theorem roundsTo_add : RoundsTo (x.value + y.value) (x.add y) := by
  have hsum : x.value + y.value = ((x.signedUnits + y.signedUnits : ℤ) : ℚ) / 2 ^ 149 := by
    rw [value_eq_signedUnits, value_eq_signedUnits]
    push_cast
    ring
  have hunit : (0 : ℚ) < 2 ^ 149 := by positivity
  rw [add_eq hx hy, hsum]
  split
  · rename_i hzero
    rw [hzero, Int.cast_zero, zero_div]
    have hnearest : nearest 0 1 = 0 := rfl
    rw [← hnearest]
    exact roundsTo_ofMagnitude one_pos (by simp) (fun h => absurd rfl h)
  · apply roundsTo_ofMagnitude one_pos
    · rw [abs_div, abs_of_pos hunit, Nat.cast_one, div_one, Nat.cast_natAbs, Int.cast_abs]
    · intro _
      rw [decide_eq_true_eq, div_lt_iff₀ hunit, zero_mul, Int.cast_lt_zero]

end Operations

end ShaderIntake.Binary32
