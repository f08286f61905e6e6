import Mathlib.Data.List.DropRight
import ShaderIntake.Proofs.Decimal.Value
import ShaderIntake.Proofs.Json.Digits

/-!
# Numerals as decimals

Without its sign a numeral stands for a decimal (`Numeral.decimal`), whose digits are those
on both sides of the point.  Its significant digits are the ones without the zeros in front
and at the end, and there are as many as the value needs, whichever way it is written:
`Numeral.significant_le_iff`.
-/

namespace ShaderIntake.Json

/-! ## Digits without zeros at the ends -/

/-- The digits without the zeros in front and at the end. -/
def stripZeros (digits : List Char) : List Char :=
  (digits.dropWhile (· == '0')).rdropWhile (· == '0')

theorem eq_zeros (digits : List Char) (h : ∀ c ∈ digits, (c == '0') = true) :
    digits = List.replicate digits.length '0' :=
  List.eq_replicate_iff.2 ⟨rfl, fun c hc => eq_of_beq (h c hc)⟩

theorem exists_eq_zeros_append (digits : List Char) : ∃ a b,
    digits = List.replicate a '0' ++ (stripZeros digits ++ List.replicate b '0') := by
  have hfront := eq_zeros (digits.takeWhile (· == '0'))
    fun c hc => List.mem_takeWhile_imp (p := (· == '0')) hc
  have hend := eq_zeros ((digits.dropWhile (· == '0')).rtakeWhile (· == '0'))
    fun c hc => List.mem_rtakeWhile_imp (p := (· == '0')) hc
  refine ⟨(digits.takeWhile (· == '0')).length,
    ((digits.dropWhile (· == '0')).rtakeWhile (· == '0')).length, ?_⟩
  rw [← hfront, ← hend, stripZeros, List.rdropWhile_append_rtakeWhile,
    List.takeWhile_append_dropWhile]

theorem head?_stripZeros (digits : List Char) : (stripZeros digits).head? ≠ some '0' := by
  intro hhead
  obtain ⟨rest, hcons⟩ := List.head?_eq_some_iff.1 hhead
  obtain ⟨more, hprefix⟩ := List.rdropWhile_prefix (· == '0') (digits.dropWhile (· == '0'))
  have hnot := List.head?_dropWhile_not (· == '0') digits
  rw [← stripZeros, hcons, List.cons_append] at hprefix
  rw [← hprefix] at hnot
  simp at hnot

theorem getLast?_stripZeros (digits : List Char) : (stripZeros digits).getLast? ≠ some '0' := by
  intro hlast
  have hne : stripZeros digits ≠ [] := by
    intro hnil
    rw [hnil] at hlast
    cases hlast
  rw [List.getLast?_eq_some_getLast hne, Option.some_inj] at hlast
  exact List.rdropWhile_last_not (· == '0') (digits.dropWhile (· == '0')) hne
    (beq_iff_eq.2 hlast)

theorem hasDigits_iff_length_le {digits : List Char} {k : ℕ} (h : ∀ c ∈ digits, c.isDigit)
    (hhead : digits.head? ≠ some '0') (hlast : digits.getLast? ≠ some '0') :
    digits.length ≤ k ↔ HasDigits k (digitsValue digits) := by
  constructor
  · intro hk
    refine HasDigits.mono ⟨⟨digitsValue digits, 0⟩, digitsValue_lt h, ?_⟩ hk
    rw [Decimal.value, zpow_zero, mul_one]
  · intro hdigits
    cases digits with
    | nil => exact Nat.zero_le k
    | cons c rest =>
      obtain ⟨d, hd⟩ := Option.ne_none_iff_exists'.1 (mt List.getLast?_eq_none_iff.1
        (List.cons_ne_nil c rest))
      obtain ⟨start, hconcat⟩ := List.getLast?_eq_some_iff.1 hd
      rw [List.head?_cons, ne_eq, Option.some_inj] at hhead
      rw [hd, ne_eq, Option.some_inj] at hlast
      have hfirst : 10 ^ rest.length ≤ digitsValue (c :: rest) :=
        pow_le_digitsValue (h c List.mem_cons_self) hhead
      have hten : digitsValue (c :: rest) % 10 ≠ 0 := by
        rw [hconcat] at h ⊢
        exact digitsValue_mod_ten (h d (by simp)) hlast
      exact lt_of_hasDigits hfirst hten hdigits

/-! ## Numerals -/

namespace Numeral

/-- The number without its sign as a decimal. -/
def decimal (n : Numeral) : Decimal :=
  ⟨digitsValue (n.whole ++ n.fraction), n.exponent.elim 0 Exponent.value - n.fraction.length⟩

theorem value_eq (n : Numeral) :
    n.value = if n.sign = ['-'] then -n.decimal.value else n.decimal.value := rfl

theorem abs_value (n : Numeral) : |n.value| = n.decimal.value := by
  rw [value_eq]
  split
  · rw [abs_neg, abs_of_nonneg n.decimal.value_nonneg]
  · exact abs_of_nonneg n.decimal.value_nonneg

/-- The number of digits without the zeros in front and at the end. -/
def significant (n : Numeral) : ℕ :=
  (stripZeros (n.whole ++ n.fraction)).length

theorem WellFormed.isDigit {n : Numeral} (h : n.WellFormed) :
    ∀ c ∈ n.whole ++ n.fraction, c.isDigit :=
  List.forall_mem_append.2 ⟨h.whole.2, h.fraction⟩

/-- The characters of a numeral. -/
theorem WellFormed.mem_text {n : Numeral} (h : n.WellFormed) {c : Char} (hc : c ∈ n.text) :
    c.isDigit ∨ c ∈ ['-', '+', '.', 'e', 'E'] := by
  rw [text, List.mem_append, List.mem_append, List.mem_append] at hc
  obtain hc | hc | hc | hc := hc
  · obtain hsign | hsign := h.sign <;> rw [hsign] at hc
    · cases hc
    · exact .inr (by simp [List.mem_singleton.1 hc])
  · exact .inl (h.whole.2 c hc)
  · split at hc
    · cases hc
    · obtain rfl | hc := List.mem_cons.1 hc
      · exact .inr (by decide)
      · exact .inl (h.fraction c hc)
  · cases hexponent : n.exponent with
    | none =>
      rw [hexponent] at hc
      cases hc
    | some e =>
      have he := h.exponent e hexponent
      rw [hexponent, Option.elim_some, Exponent.text, List.mem_cons, List.mem_append] at hc
      obtain rfl | hc | hc := hc
      · exact .inr (by obtain hletter | hletter := he.letter <;> simp [hletter])
      · exact .inr (by obtain hsign | hsign | hsign := he.sign <;> simp_all)
      · exact .inl (he.digits.2 c hc)

/-- A numeral has as many significant digits as its value needs. -/
theorem significant_le_iff {n : Numeral} (h : n.WellFormed) {k : ℕ} :
    n.significant ≤ k ↔ HasDigits k n.decimal.value := by
  obtain ⟨a, b, hdigits⟩ := exists_eq_zeros_append (n.whole ++ n.fraction)
  have hstrip : ∀ c ∈ stripZeros (n.whole ++ n.fraction), c.isDigit := by
    intro c hc
    apply h.isDigit
    rw [hdigits]
    simp [hc]
  have hvalue : (digitsValue (n.whole ++ n.fraction) : ℚ) =
      digitsValue (stripZeros (n.whole ++ n.fraction)) * 10 ^ (b : ℤ) := by
    nth_rewrite 1 [hdigits]
    rw [digitsValue_zeros_append, digitsValue_append_zeros, zpow_natCast]
    push_cast
    rfl
  rw [significant, hasDigits_iff_length_le hstrip (head?_stripZeros _) (getLast?_stripZeros _),
    Decimal.value, decimal, hvalue, hasDigits_mul_zpow_iff, hasDigits_mul_zpow_iff]

end Numeral

end ShaderIntake.Json
