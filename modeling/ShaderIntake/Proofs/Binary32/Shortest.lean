import Mathlib.Data.Nat.Cast.Order.Field
import ShaderIntake.Proofs.Binary32.Reading
import ShaderIntake.Proofs.Json.Digits

/-!
# The shortest decimals

`shortest m` is read as the magnitude `m` (`magnitude_shortest`), and no decimal with fewer
digits is (`hasDigits_shortest`).

The digits of a value begin at its `leadingPower`.  On the grid of a power of ten the value
lies between two multiples, `below` and `above`, and as reading keeps the order, one of the
two is read back if any multiple is (`onGrid?_ne_none_of_magnitude_eq`).  A decimal of
`k + 1` digits is on the `k`-th grid behind the leading digit, or it is below the leading
power of ten, which is on that grid too and nearer to the value
(`onGrid?_ne_none_of_digits_lt`).  So the first grid with a hit leaves nothing shorter, and
there is one, because nine digits are close enough (`onGrid?_ninth_ne_none`).
-/

namespace ShaderIntake

namespace Binary32

open Decimal

/-! ## The leading digit -/

/-- The whole part of `u` units times `10 ^ 45`. -/
def leadingPart (u : ℕ) : ℕ :=
  u * Nat.pow 10 45 / unitsPerOne

theorem leadingPart_pos {u : ℕ} (hu : 0 < u) : 0 < leadingPart u := by
  apply Nat.div_pos
  · calc unitsPerOne ≤ 1 * Nat.pow 10 45 := by decide
      _ ≤ u * Nat.pow 10 45 := Nat.mul_le_mul_right _ hu
  · decide

/-- A power of ten counted from the leading digit. -/
theorem ten_zpow_leadingPower_add (u k : ℕ) :
    (10 : ℚ) ^ (leadingPower u + k) =
      10 ^ ((Nat.toDigits 10 (leadingPart u)).length - 1 + k) / 10 ^ 45 := by
  have hlength := Nat.length_toDigits_pos (b := 10) (n := leadingPart u)
  have hpower : leadingPower u + k =
      ((Nat.toDigits 10 (leadingPart u)).length - 1 + k : ℕ) - (45 : ℕ) := by
    rw [leadingPower, leadingPart]
    rw [leadingPart] at hlength
    omega
  rw [hpower, zpow_sub₀ (by norm_num), zpow_natCast, zpow_natCast]

section Leading

variable {m : ℕ} (hm : 0 < m)

include hm

theorem units_pos : 0 < units m :=
  units_strictMono.le_apply.trans_lt' hm

theorem ten_zpow_leadingPower_le : (10 : ℚ) ^ leadingPower (units m) ≤ (exact m).value := by
  have hpart := Json.pow_le_of_toDigits (leadingPart_pos (units_pos hm))
  rw [leadingPart, Nat.le_div_iff_mul_le (by decide)] at hpart
  have hcast : (10 : ℚ) ^ ((Nat.toDigits 10 (leadingPart (units m))).length - 1) * 2 ^ 149 ≤
      units m * 10 ^ 45 := by exact_mod_cast hpart
  have hpower := ten_zpow_leadingPower_add (units m) 0
  rw [Nat.cast_zero, add_zero, add_zero] at hpower
  rw [hpower, value_exact, div_le_div_iff₀ (by positivity) (by positivity)]
  exact hcast

omit hm in
theorem lt_ten_zpow_leadingPower : (exact m).value < 10 ^ (leadingPower (units m) + 1) := by
  have hpart := Json.lt_pow_of_toDigits (leadingPart (units m))
  have hlength := Nat.length_toDigits_pos (b := 10) (n := leadingPart (units m))
  rw [leadingPart, Nat.div_lt_iff_lt_mul (by decide), ← leadingPart] at hpart
  have hcast : (units m : ℚ) * 10 ^ 45 <
      10 ^ (Nat.toDigits 10 (leadingPart (units m))).length * 2 ^ 149 := by
    exact_mod_cast hpart
  have hpower := ten_zpow_leadingPower_add (units m) 1
  rw [Nat.sub_add_cancel hlength] at hpower
  rw [value_exact, ← Nat.cast_one, hpower, div_lt_div_iff₀ (by positivity) (by positivity)]
  exact hcast

end Leading

/-! ## The two multiples beside a value -/

/-- The multiple of `10 ^ e` at or below the value of a magnitude. -/
def below (m : ℕ) (e : ℤ) : Decimal :=
  ⟨units m * Nat.pow 10 (-e).toNat / (unitsPerOne * Nat.pow 10 e.toNat), e⟩

/-- The multiple of `10 ^ e` above the value of a magnitude. -/
def above (m : ℕ) (e : ℤ) : Decimal :=
  ⟨(below m e).digits + 1, e⟩

section Grid

variable (m : ℕ) (e : ℤ)

/-- The value as a fraction of whole numbers in multiples of `10 ^ e`. -/
theorem value_exact_div :
    (exact m).value / 10 ^ e = ((units m * Nat.pow 10 (-e).toNat : ℕ) : ℚ) /
      (unitsPerOne * Nat.pow 10 e.toNat : ℕ) := by
  rw [value_exact, ten_zpow_eq, unitsPerOne, nat_pow_two, div_div_div_eq, Nat.cast_mul,
    Nat.cast_mul, Nat.cast_pow, Nat.cast_ofNat]

theorem unitsPerOne_mul_pos : 0 < unitsPerOne * Nat.pow 10 e.toNat :=
  Nat.mul_pos (by decide) (Nat.pow_pos (by omega))

theorem value_below : (below m e).value = (below m e).digits * 10 ^ e := rfl

theorem value_above : (above m e).value = ((below m e).digits + 1 : ℕ) * 10 ^ e := rfl

theorem below_le : (below m e).value ≤ (exact m).value := by
  have hpow : (0 : ℚ) < 10 ^ e := by positivity
  rw [value_below, ← le_div_iff₀ hpow, value_exact_div]
  exact Nat.cast_div_le

theorem lt_above : (exact m).value < (above m e).value := by
  have hpow : (0 : ℚ) < 10 ^ e := by positivity
  have hd := unitsPerOne_mul_pos e
  have hlt : units m * Nat.pow 10 (-e).toNat <
      ((below m e).digits + 1) * (unitsPerOne * Nat.pow 10 e.toNat) :=
    (Nat.div_lt_iff_lt_mul hd).1 (Nat.lt_succ_self _)
  rw [value_above, ← div_lt_iff₀ hpow, value_exact_div, div_lt_iff₀ (Nat.cast_pos.2 hd)]
  exact_mod_cast hlt

/-- No multiple lies between the two. -/
theorem le_below_or_above_le (c : ℕ) :
    (Decimal.mk c e).value ≤ (below m e).value ∨ (above m e).value ≤ (Decimal.mk c e).value := by
  obtain hle | hgt := Nat.lt_or_ge (below m e).digits c
  · exact .inr (value_le_value hle e)
  · exact .inl (value_le_value hgt e)

/-! ## A hit on a grid -/

theorem onGrid?_eq : onGrid? m e =
    if decide ((below m e).magnitude = m) && decide ((above m e).magnitude = m) then
      some (if 2 * (units m * Nat.pow 10 (-e).toNat % (unitsPerOne * Nat.pow 10 e.toNat)) <
        unitsPerOne * Nat.pow 10 e.toNat then below m e else above m e)
    else if decide ((below m e).magnitude = m) then some (below m e)
    else if decide ((above m e).magnitude = m) then some (above m e)
    else none := rfl

variable {m e}

/-- What is found is one of the two, and is read back. -/
theorem onGrid?_eq_some {x : Decimal} (h : onGrid? m e = some x) :
    (x = below m e ∨ x = above m e) ∧ x.magnitude = m := by
  simp only [onGrid?_eq, Bool.and_eq_true, decide_eq_true_eq] at h
  split at h
  · rename_i hboth
    split at h
    · cases h
      exact ⟨.inl rfl, hboth.1⟩
    · cases h
      exact ⟨.inr rfl, hboth.2⟩
  · split at h
    · rename_i hbelow
      cases h
      exact ⟨.inl rfl, hbelow⟩
    · split at h
      · rename_i habove
        cases h
        exact ⟨.inr rfl, habove⟩
      · cases h

/-- Nothing is found only if neither of the two is read back. -/
theorem onGrid?_eq_none (h : onGrid? m e = none) :
    (below m e).magnitude ≠ m ∧ (above m e).magnitude ≠ m := by
  by_cases hbelow : (below m e).magnitude = m
  · by_cases habove : (above m e).magnitude = m <;> simp [onGrid?_eq, hbelow, habove] at h
  · by_cases habove : (above m e).magnitude = m
    · simp [onGrid?_eq, hbelow, habove] at h
    · exact ⟨hbelow, habove⟩

/-- The `k`-th grid has numbers of `k + 1` digits at the value; the power of ten that the
upper one can be has one digit. -/
theorem hasDigits_of_onGrid? {k : ℕ} {x : Decimal}
    (h : onGrid? m (leadingPower (units m) - k) = some x) : HasDigits (k + 1) x.value := by
  have hpower : ((10 ^ (k + 1) : ℕ) : ℚ) * 10 ^ (leadingPower (units m) - k) =
      10 ^ (leadingPower (units m) + 1) := by
    rw [Nat.cast_pow, Nat.cast_ofNat, ← zpow_natCast, ← zpow_add₀ (by norm_num)]
    congr 1
    omega
  have hbelow : (below m (leadingPower (units m) - k)).digits < 10 ^ (k + 1) := by
    have hlt := (below_le m (leadingPower (units m) - k)).trans_lt lt_ten_zpow_leadingPower
    rw [value_below, ← hpower, mul_lt_mul_iff_left₀ (by positivity)] at hlt
    exact Nat.cast_lt.1 hlt
  obtain ⟨rfl | rfl, _⟩ := onGrid?_eq_some h
  · exact ⟨_, hbelow, rfl⟩
  · obtain hlt | heq := Nat.lt_or_eq_of_le (Nat.succ_le_of_lt hbelow)
    · exact ⟨_, hlt, rfl⟩
    · refine ⟨⟨1, leadingPower (units m) + 1⟩, Nat.one_lt_pow (by omega) (by omega), ?_⟩
      rw [value_above, ← Nat.succ_eq_add_one, heq, hpower, Decimal.value, Nat.cast_one, one_mul]

end Grid

/-! ## Decimals that are read back -/

/-- What is found first in a range. -/
theorem exists_of_findSome?_range {α : Type} {f : ℕ → Option α} {n : ℕ} {x : α}
    (h : (List.range n).findSome? f = some x) : ∃ k < n, f k = some x ∧ ∀ j < k, f j = none := by
  induction n with
  | zero => cases h
  | succ n ih =>
    rw [List.range_succ, List.findSome?_append, Option.or_eq_some_iff] at h
    obtain hfirst | ⟨hnone, hlast⟩ := h
    · obtain ⟨k, hk, hfirst⟩ := ih hfirst
      exact ⟨k, Nat.lt_succ_of_lt hk, hfirst⟩
    · rw [List.findSome?_singleton] at hlast
      rw [List.findSome?_eq_none_iff] at hnone
      exact ⟨n, Nat.lt_succ_self n, hlast, fun j hj => hnone j (List.mem_range.2 hj)⟩

section Reads

variable {m : ℕ} {e : ℤ} (hpos : 0 < m) (hfinite : m < infinite)

include hpos hfinite

/-- A grid that has a decimal that is read back has a hit. -/
theorem onGrid?_ne_none_of_magnitude_eq {c : ℕ} (hc : (Decimal.mk c e).magnitude = m) :
    onGrid? m e ≠ none := by
  intro hnone
  obtain ⟨hbelow, habove⟩ := onGrid?_eq_none hnone
  have hexact := magnitude_exact hpos hfinite
  obtain hle | hge := le_below_or_above_le m e c
  · exact hbelow (magnitude_eq_of_between hc hexact hle (below_le m e))
  · exact habove (magnitude_eq_of_between hexact hc (lt_above m e).le hge)

/-- A decimal with `k` digits that is read back is on the grid that ends with the `k`-th
digit of the value, or the leading power of ten is. -/
theorem onGrid?_ne_none_of_digits_lt {x : Decimal} {k : ℕ} (hdigits : x.digits < 10 ^ (k + 1))
    (hx : x.magnitude = m) : onGrid? m (leadingPower (units m) - k) ≠ none := by
  have hten : (1 : ℚ) < 10 := by norm_num
  obtain hsmall | hlarge := lt_or_ge x.value (10 ^ leadingPower (units m))
  · apply onGrid?_ne_none_of_magnitude_eq hpos hfinite (c := 10 ^ k)
    have hpower : (Decimal.mk (10 ^ k) (leadingPower (units m) - k)).value =
        10 ^ leadingPower (units m) := by
      rw [Decimal.value, zpow_sub₀ (by norm_num), zpow_natCast]
      push_cast
      field_simp
    apply magnitude_eq_of_between hx (magnitude_exact hpos hfinite)
    · rw [hpower]
      exact hsmall.le
    · rw [hpower]
      exact ten_zpow_leadingPower_le hpos
  · have hexponent : leadingPower (units m) - k ≤ x.exponent := by
      have hlt : x.value < 10 ^ ((k + 1 : ℕ) + x.exponent) := by
        rw [Decimal.value, zpow_add₀ (by norm_num), zpow_natCast]
        exact mul_lt_mul_of_pos_right (by exact_mod_cast hdigits) (by positivity)
      have hpower := (zpow_lt_zpow_iff_right₀ hten).1 (hlarge.trans_lt hlt)
      omega
    obtain ⟨c, hc⟩ := x.exists_value_eq hexponent
    exact onGrid?_ne_none_of_magnitude_eq hpos hfinite ((magnitude_congr hc).trans hx)

/-- Nine digits are close enough. -/
theorem onGrid?_ninth_ne_none : onGrid? m (leadingPower (units m) - 8) ≠ none := by
  intro hnone
  refine (onGrid?_eq_none hnone).1 (magnitude_eq_of_close _ hfinite ?_)
  have hle := below_le m (leadingPower (units m) - 8)
  have hlt := lt_above m (leadingPower (units m) - 8)
  have hleading := ten_zpow_leadingPower_le hpos
  have hgrid : (10 : ℚ) ^ (leadingPower (units m) - 8) =
      10 ^ leadingPower (units m) / 10 ^ (8 : ℤ) := zpow_sub₀ (by norm_num) _ _
  rw [value_above, Nat.cast_succ, add_one_mul, ← value_below, hgrid] at hlt
  rw [abs_of_nonneg (sub_nonneg.2 hle)]
  norm_num at hlt
  linarith

/-! ## The coarsest grid -/

/-- The shortest decimal is a hit on the first grid that has one, without the zeros at its
end. -/
theorem exists_shortest_eq : ∃ (k : ℕ) (x : Decimal),
    onGrid? m (leadingPower (units m) - k) = some x ∧
    (∀ j : ℕ, onGrid? m (leadingPower (units m) - j) ≠ none → k ≤ j) ∧
    shortest m = x.trim := by
  obtain ⟨x, hx⟩ : ∃ x, (List.range 9).findSome?
      (fun k : ℕ => onGrid? m (leadingPower (units m) - k)) = some x := by
    rw [← Option.ne_none_iff_exists', ne_eq, List.findSome?_eq_none_iff]
    intro hnone
    exact onGrid?_ninth_ne_none hpos hfinite (hnone 8 (by decide))
  obtain ⟨k, _, hsome, hbefore⟩ := exists_of_findSome?_range hx
  refine ⟨k, x, hsome, ?_, ?_⟩
  · intro j hj
    by_contra hlt
    exact hj (hbefore j (Nat.lt_of_not_le hlt))
  · rw [shortest, hx]
    rfl

/-! ## Shortest -/

/-- The shortest decimal is read back. -/
theorem magnitude_shortest : (shortest m).magnitude = m := by
  obtain ⟨k, x, hsome, _, hshortest⟩ := exists_shortest_eq hpos hfinite
  rw [hshortest, magnitude_congr (value_trim x)]
  exact (onGrid?_eq_some hsome).2

/-- No decimal with fewer digits is read back. -/
theorem hasDigits_shortest {x : Decimal} {k : ℕ} (hdigits : x.digits < 10 ^ k)
    (hx : x.magnitude = m) : HasDigits k (shortest m).value := by
  obtain ⟨j, y, hsome, hleast, hshortest⟩ := exists_shortest_eq hpos hfinite
  rw [hshortest, value_trim]
  cases k with
  | zero =>
    have hzero := x.magnitude_eq_zero (by omega)
    omega
  | succ k =>
    have hjk := hleast k (onGrid?_ne_none_of_digits_lt hpos hfinite hdigits hx)
    exact (hasDigits_of_onGrid? hsome).mono (Nat.succ_le_succ hjk)

/-- A decimal that is the shortest one of its magnitude is in order with all others as the
magnitudes are. -/
theorem magnitude_le_iff {x : Decimal} (hx : shortest x.magnitude = x) :
    x.magnitude ≤ m ↔ x.value ≤ (shortest m).value := by
  have hreads := magnitude_shortest hpos hfinite
  constructor
  · intro hle
    by_contra hlt
    have hge : m ≤ x.magnitude := hreads ▸ magnitude_mono (not_le.1 hlt).le
    rw [← le_antisymm hle hge, hx] at hlt
    exact hlt le_rfl
  · intro hle
    exact hreads ▸ magnitude_mono hle

end Reads

end Binary32

end ShaderIntake
