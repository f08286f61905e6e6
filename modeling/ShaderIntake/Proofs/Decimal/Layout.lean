import ShaderIntake.Proofs.Json.Numerals

/-!
# Decimals as texts

Both layouts of a decimal write numerals without a sign that have its value
(`Decimal.WrittenAs`): `positional` puts the point among its digits and zeros, and
`scientific` behind the first digit, with the power of ten as an exponent.
-/

namespace ShaderIntake.Decimal

open Json

/-- The text is a numeral without a sign that has the value of the decimal. -/
structure WrittenAs (x : Decimal) (s : String) (n : Numeral) : Prop where
  wellFormed : n.WellFormed
  unsigned : n.sign = []
  text : s.toList = n.text
  value : n.decimal.value = x.value

theorem isDigit_zeros {k : ℕ} : ∀ c ∈ List.replicate k '0', c.isDigit := by
  intro c hc
  rw [List.eq_of_mem_replicate hc]
  rfl

variable {x : Decimal}

/-! ## With a point only -/

/-- Digits before and behind a point are a numeral. -/
theorem exists_pointed {s : String} (whole fraction : List Char) (hwhole : IsDigits whole)
    (hzero : whole.head? = some '0' → whole = ['0']) (hfraction : IsDigits fraction)
    (htext : s.toList = whole ++ '.' :: fraction)
    (hvalue : (mk (digitsValue (whole ++ fraction)) (-fraction.length)).value = x.value) :
    ∃ n, x.WrittenAs s n ∧ n.exponent = none := by
  refine ⟨⟨[], whole, fraction, none⟩, ⟨?_, rfl, ?_, ?_⟩, rfl⟩
  · exact ⟨.inl rfl, hwhole, hzero, hfraction.2, by simp⟩
  · rw [htext, Numeral.text, if_neg hfraction.1]
    simp
  · rw [← hvalue, Numeral.decimal, Option.elim_none, zero_sub]

section Positional

variable (h : 0 < x.digits)

include h

/-- A whole number has a zero behind the point. -/
theorem exists_positional_of_nonneg (he : 0 ≤ x.exponent) :
    ∃ n, x.WrittenAs x.positional n ∧ n.exponent = none := by
  obtain ⟨k, hk⟩ := Int.eq_ofNat_of_zero_le he
  have hdigits := isDigits_toDigits x.digits
  apply exists_pointed (Nat.toDigits 10 x.digits ++ List.replicate k '0')
    (List.replicate 1 '0')
  · exact ⟨List.append_ne_nil_of_left_ne_nil hdigits.1 _,
      List.forall_mem_append.2 ⟨hdigits.2, isDigit_zeros⟩⟩
  · rw [List.head?_append_of_ne_nil _ hdigits.1]
    exact fun hzero => absurd hzero (head?_toDigits h)
  · exact ⟨by simp, isDigit_zeros⟩
  · rw [positional]
    simp [hk]
  · rw [digitsValue_append_zeros, digitsValue_append_zeros, value_mul_pow, value_mul_pow,
      digitsValue_toDigits, List.length_replicate]
    congr 2
    omega

/-- With more digits than places, the point is among them. -/
theorem exists_positional_of_places_lt (he : x.exponent < 0)
    (hplaces : (-x.exponent).toNat < (Nat.toDigits 10 x.digits).length) :
    ∃ n, x.WrittenAs x.positional n ∧ n.exponent = none := by
  obtain ⟨w, hw⟩ : ∃ w, (Nat.toDigits 10 x.digits).length - (-x.exponent).toNat = w := ⟨_, rfl⟩
  apply exists_pointed ((Nat.toDigits 10 x.digits).take w) ((Nat.toDigits 10 x.digits).drop w)
  · exact isDigits_take_toDigits _ (by omega)
  · exact fun hzero => absurd hzero (head?_take_toDigits h w)
  · refine ⟨?_, fun c hc => (isDigits_toDigits _).2 c (List.mem_of_mem_drop hc)⟩
    rw [ne_eq, List.drop_eq_nil_iff]
    omega
  · rw [positional, if_neg (not_le.2 he), if_pos hplaces, String.toList_ofList, hw]
  · rw [List.take_append_drop, digitsValue_toDigits, List.length_drop]
    congr 2
    omega

omit h in
/-- A number below one has zeros up to its digits. -/
theorem exists_positional_of_le_places (he : x.exponent < 0)
    (hplaces : (Nat.toDigits 10 x.digits).length ≤ (-x.exponent).toNat) :
    ∃ n, x.WrittenAs x.positional n ∧ n.exponent = none := by
  have hdigits := isDigits_toDigits x.digits
  apply exists_pointed ['0']
    (List.replicate ((-x.exponent).toNat - (Nat.toDigits 10 x.digits).length) '0' ++
      Nat.toDigits 10 x.digits)
  · exact ⟨by simp, isDigit_zeros (k := 1)⟩
  · exact fun _ => rfl
  · exact ⟨List.append_ne_nil_of_right_ne_nil _ hdigits.1,
      List.forall_mem_append.2 ⟨isDigit_zeros, hdigits.2⟩⟩
  · rw [positional, if_neg (not_le.2 he), if_neg (Nat.not_lt.2 hplaces), String.toList_ofList]
    rfl
  · rw [show ['0'] = List.replicate 1 '0' from rfl, digitsValue_zeros_append,
      digitsValue_zeros_append, digitsValue_toDigits, List.length_append, List.length_replicate,
      Nat.sub_add_cancel hplaces]
    congr 2
    omega

/-- The positional text of a number that is not zero is a numeral without an exponent. -/
theorem exists_positional : ∃ n, x.WrittenAs x.positional n ∧ n.exponent = none := by
  obtain he | he := lt_or_ge x.exponent 0
  · obtain hplaces | hplaces :=
      Nat.lt_or_ge (-x.exponent).toNat (Nat.toDigits 10 x.digits).length
    · exact exists_positional_of_places_lt h he hplaces
    · exact exists_positional_of_le_places he hplaces
  · exact exists_positional_of_nonneg h he

end Positional

/-! ## With an exponent -/

/-- The exponent is written as a whole number with its sign. -/
theorem toList_toString_int (z : ℤ) :
    (toString z).toList = (if z < 0 then ['-'] else []) ++ Nat.toDigits 10 z.natAbs := by
  cases z with
  | ofNat n => simp [toString, Int.repr]
  | negSucc n => simp [toString, Int.repr]

/-- A power of ten as an exponent. -/
def exponentOf (z : ℤ) : Exponent :=
  ⟨'e', if z < 0 then ['-'] else [], Nat.toDigits 10 z.natAbs⟩

theorem wellFormed_exponentOf (z : ℤ) : (exponentOf z).WellFormed where
  letter := .inl rfl
  sign := by
    rw [exponentOf]
    split
    · exact .inr (.inr rfl)
    · exact .inl rfl
  digits := isDigits_toDigits _

theorem value_exponentOf (z : ℤ) : (exponentOf z).value = z := by
  rw [Exponent.value, exponentOf]
  by_cases hz : z < 0
  · simp only [if_pos hz, digitsValue_toDigits, if_true]
    omega
  · simp only [if_neg hz, digitsValue_toDigits]
    rw [if_neg (by simp)]
    omega

/-- The text with an exponent of a number that is not zero is a numeral with an exponent. -/
theorem exists_scientific (h : 0 < x.digits) :
    ∃ n, x.WrittenAs x.scientific n ∧ n.exponent ≠ none := by
  refine ⟨⟨[], (Nat.toDigits 10 x.digits).take 1, (Nat.toDigits 10 x.digits).drop 1,
    some (exponentOf (x.exponent + ((Nat.toDigits 10 x.digits).length - 1 : ℕ)))⟩,
    ⟨?_, rfl, ?_, ?_⟩, by simp⟩
  · refine ⟨.inl rfl, isDigits_take_toDigits _ one_ne_zero,
      fun hzero => absurd hzero (head?_take_toDigits h 1),
      fun c hc => (isDigits_toDigits _).2 c (List.mem_of_mem_drop hc), ?_⟩
    rintro e ⟨⟩
    exact wellFormed_exponentOf _
  · have hfraction : (Nat.toDigits 10 x.digits).drop 1 = [] ↔
        (Nat.toDigits 10 x.digits).length ≤ 1 := List.drop_eq_nil_iff
    rw [scientific, Numeral.text, String.toList_append, String.toList_ofList, toList_toString_int]
    simp only [hfraction, exponentOf, Exponent.text, Option.elim_some, List.nil_append,
      List.append_assoc, List.cons_append]
  · rw [Numeral.decimal, List.take_append_drop, digitsValue_toDigits, List.length_drop,
      Option.elim_some, value_exponentOf, add_sub_cancel_right]

end ShaderIntake.Decimal
