import Mathlib.Algebra.Ring.Nat
import Mathlib.Data.List.Induction
import ShaderIntake.Proofs.Json.Grammar

/-!
# Decimal digits

What digits stand for (`digitsValue`): zeros in front do not count, zeros at the end count as
powers of ten, and digits that begin or end with another one than zero stand for a number
that is large enough, or no multiple of ten.

`Nat.toDigits 10` writes a number with the digits that stand for it, and without a zero in
front.
-/

namespace ShaderIntake.Json

/-! ## The values of digits -/

theorem digitsValue_append (xs ys : List Char) :
    digitsValue (xs ++ ys) = digitsValue xs * 10 ^ ys.length + digitsValue ys := by
  rw [digitsValue, Nat.ofDigitChars_append, Nat.ofDigitChars_eq_ofDigitChars_zero, Nat.mul_comm]
  rfl

theorem digitsValue_zeros (k : Nat) : digitsValue (List.replicate k '0') = 0 := by
  rw [digitsValue, Nat.ofDigitChars_replicate_zero, Nat.mul_zero]

theorem digitsValue_singleton (c : Char) : digitsValue [c] = c.toNat - '0'.toNat := by
  rw [digitsValue, Nat.ofDigitChars_cons, Nat.mul_zero, Nat.zero_add, Nat.ofDigitChars_nil]

/-- Zeros in front do not count. -/
theorem digitsValue_zeros_append (k : Nat) (digits : List Char) :
    digitsValue (List.replicate k '0' ++ digits) = digitsValue digits := by
  rw [digitsValue_append, digitsValue_zeros, Nat.zero_mul, Nat.zero_add]

theorem digitsValue_append_zeros (digits : List Char) (k : Nat) :
    digitsValue (digits ++ List.replicate k '0') = digitsValue digits * 10 ^ k := by
  rw [digitsValue_append, digitsValue_zeros, List.length_replicate, Nat.add_zero]

/-- Digits stand for less than the power of ten behind them. -/
theorem digitsValue_lt {digits : List Char} (h : ∀ c ∈ digits, c.isDigit) :
    digitsValue digits < 10 ^ digits.length := by
  induction digits with
  | nil => decide
  | cons c digits ih =>
    rw [List.forall_mem_cons, Char.isDigit_iff_toNat] at h
    have hrest := ih h.2
    have hdigit : c.toNat - '0'.toNat ≤ 9 := Nat.sub_le_of_le_add h.1.2
    have hle := Nat.mul_le_mul_right (10 ^ digits.length) hdigit
    rw [← List.singleton_append, digitsValue_append, digitsValue_singleton,
      List.singleton_append, List.length_cons, pow_succ]
    omega

theorem toNat_pos_of_ne_zero {c : Char} (hc : c.isDigit) (hne : c ≠ '0') :
    0 < c.toNat - '0'.toNat := by
  rw [Char.isDigit_iff_toNat] at hc
  have hnat : c.toNat ≠ '0'.toNat := mt Char.toNat_inj.1 hne
  omega

/-- Digits that do not begin with a zero stand for at least the power of ten of the first. -/
theorem pow_le_digitsValue {c : Char} {digits : List Char} (hc : c.isDigit) (hne : c ≠ '0') :
    10 ^ digits.length ≤ digitsValue (c :: digits) := by
  have hle := Nat.mul_le_mul_right (10 ^ digits.length) (toNat_pos_of_ne_zero hc hne)
  rw [← List.singleton_append, digitsValue_append, digitsValue_singleton]
  omega

/-- Digits that do not end with a zero do not stand for a multiple of ten. -/
theorem digitsValue_mod_ten {c : Char} {digits : List Char} (hc : c.isDigit) (hne : c ≠ '0') :
    digitsValue (digits ++ [c]) % 10 ≠ 0 := by
  have hpos := toNat_pos_of_ne_zero hc hne
  rw [Char.isDigit_iff_toNat] at hc
  have hdigit : c.toNat - '0'.toNat ≤ 9 := Nat.sub_le_of_le_add hc.2
  rw [digitsValue_append, digitsValue_singleton, List.length_singleton, pow_one]
  omega

/-! ## The digits of a number -/

theorem digitsValue_toDigits (n : Nat) : digitsValue (Nat.toDigits 10 n) = n := by
  rw [digitsValue, Nat.ofDigitChars_ten_toDigits]

theorem isDigits_toDigits (n : Nat) : IsDigits (Nat.toDigits 10 n) :=
  ⟨Nat.toDigits_ne_nil, fun _ hc => Nat.isDigit_of_mem_toDigits (by omega) (by omega) hc⟩

theorem isDigits_zeros_append_toDigits (k n : Nat) :
    IsDigits (List.replicate k '0' ++ Nat.toDigits 10 n) := by
  refine ⟨fun h => Nat.toDigits_ne_nil (List.append_eq_nil_iff.1 h).2, fun c hc => ?_⟩
  rcases List.mem_append.1 hc with hzero | hdigit
  · rw [List.eq_of_mem_replicate hzero]
    decide
  · exact (isDigits_toDigits n).2 c hdigit

/-- A number has as many digits as there are powers of ten up to it. -/
theorem pow_le_of_toDigits {n : Nat} (hn : 0 < n) :
    10 ^ ((Nat.toDigits 10 n).length - 1) ≤ n := by
  by_contra hnot
  obtain hone | htwo := Nat.eq_zero_or_pos ((Nat.toDigits 10 n).length - 1)
  · rw [hone, pow_zero] at hnot
    omega
  · have hle := (Nat.length_toDigits_le_iff (by omega) htwo).2 (Nat.lt_of_not_le hnot)
    omega

theorem lt_pow_of_toDigits (n : Nat) : n < 10 ^ (Nat.toDigits 10 n).length :=
  (Nat.length_toDigits_le_iff (by omega) Nat.length_toDigits_pos).1 le_rfl

/-- Only zero begins with a zero. -/
theorem head?_toDigits {n : Nat} (hn : 0 < n) : (Nat.toDigits 10 n).head? ≠ some '0' := by
  induction n using Nat.strongRecOn with
  | ind n ih =>
    by_cases hsmall : n < 10
    · rw [Nat.toDigits_of_lt_base hsmall, List.head?_cons]
      intro h
      have := Nat.digitChar_eq_zero.1 (Option.some.inj h)
      omega
    · have hdigits := Nat.toDigits_of_base_le (b := 10) (by omega) (Nat.le_of_not_lt hsmall)
      obtain ⟨d, digits, hrest⟩ := List.exists_cons_of_ne_nil
        (Nat.toDigits_ne_nil (n := n / 10) (b := 10))
      have hfirst := ih (n / 10) (by omega) (by omega)
      rw [hrest, List.head?_cons] at hfirst
      rw [hdigits, hrest, List.cons_append, List.head?_cons]
      exact hfirst

theorem digitChar_toNat {c : Char} (hc : c.isDigit) : Nat.digitChar (c.toNat - '0'.toNat) = c := by
  rw [Char.isDigit_iff_toNat] at hc
  have hlower : '0'.toNat ≤ c.toNat := hc.1
  have hupper : c.toNat - '0'.toNat ≤ 9 := Nat.sub_le_of_le_add hc.2
  rw [← Char.toNat_inj, Nat.toNat_digitChar_of_lt_ten (by omega)]
  exact Nat.add_sub_cancel' hlower

/-- Digits are the digits of what they stand for, with zeros in front. -/
theorem exists_eq_zeros_append_toDigits {digits : List Char} (h : IsDigits digits) :
    ∃ k, digits = List.replicate k '0' ++ Nat.toDigits 10 (digitsValue digits) := by
  induction digits using List.reverseRecOn with
  | nil => exact absurd rfl h.1
  | append_singleton digits c ih =>
    have hc := h.2 c (List.mem_append_right digits (List.mem_singleton_self c))
    have hsmall : c.toNat - '0'.toNat < 10 :=
      Nat.lt_succ_of_le (Nat.sub_le_of_le_add (Char.isDigit_iff_toNat.1 hc).2)
    have hlast : Nat.toDigits 10 (c.toNat - '0'.toNat) = [c] := by
      rw [Nat.toDigits_of_lt_base hsmall, digitChar_toNat hc]
    rw [digitsValue_append, digitsValue_singleton, List.length_singleton, pow_one, Nat.mul_comm]
    by_cases hnil : digits = []
    · subst hnil
      refine ⟨0, ?_⟩
      rw [digitsValue, Nat.ofDigitChars_nil, Nat.mul_zero, Nat.zero_add, hlast]
      rfl
    · obtain ⟨k, hk⟩ := ih ⟨hnil, fun d hd => h.2 d (List.mem_append_left [c] hd)⟩
      obtain hzero | hpos := Nat.eq_zero_or_pos (digitsValue digits)
      · refine ⟨k + 1, ?_⟩
        rw [hzero] at hk ⊢
        rw [hk, Nat.mul_zero, Nat.zero_add, hlast, List.replicate_succ']
        rfl
      · refine ⟨k, ?_⟩
        rw [← Nat.toDigits_append_toDigits (by omega) hpos hsmall, hlast, ← List.append_assoc,
          ← hk]

/-- The first digits of a number. -/
theorem isDigits_take_toDigits (n : Nat) {w : Nat} (hw : w ≠ 0) :
    IsDigits ((Nat.toDigits 10 n).take w) := by
  refine ⟨?_, fun c hc => (isDigits_toDigits n).2 c (List.mem_of_mem_take hc)⟩
  rw [ne_eq, List.take_eq_nil_iff, not_or]
  exact ⟨hw, Nat.toDigits_ne_nil⟩

theorem head?_take_toDigits {n : Nat} (hn : 0 < n) (w : Nat) :
    ((Nat.toDigits 10 n).take w).head? ≠ some '0' := by
  rw [List.head?_take]
  split
  · simp
  · exact head?_toDigits hn

end ShaderIntake.Json
