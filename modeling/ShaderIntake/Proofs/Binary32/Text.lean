import ShaderIntake.Proofs.Binary32.Shortest
import ShaderIntake.Proofs.Decimal.Layout
import ShaderIntake.Proofs.Json.Unambiguous

/-!
# The texts of numbers

The text of a finite number is a numeral (`exists_printedAs`), and `PrintedAs` is what is
known about it: it is read back as the number that was written and as no other, down to the
sign of a zero, it has an exponent only where the number is too small or too large for a
text without, and no numeral at all with fewer significant digits is read as the number.

Reading is rounding to nearest (`ReadsAs`), which knows nothing of how texts are written.
So `text_eq_text_iff` follows: only NaNs share their text.
-/

namespace ShaderIntake.Binary32

open Json

/-! ## Reading numerals -/

/-- The numeral is read as the number: its value, rounded, with the sign that is written. -/
structure ReadsAs (n : Numeral) (x : Binary32) : Prop where
  roundsTo : RoundsTo n.value x
  negative_iff : x.negative = true ↔ n.sign = ['-']

section Reading

variable {n : Numeral} {x y : Binary32}

theorem ReadsAs.magnitude_eq (h : ReadsAs n x) : x.magnitude = n.decimal.magnitude :=
  n.decimal.magnitude_eq_of_roundsTo n.abs_value h.roundsTo

/-- A numeral is read as one number. -/
theorem ReadsAs.unique (hx : ReadsAs n x) (hy : ReadsAs n y) : x = y := by
  apply eq_of_magnitude_eq
  · rw [Bool.eq_iff_iff, hx.negative_iff, hy.negative_iff]
  · rw [hx.magnitude_eq, hy.magnitude_eq]

theorem readsAs_ofMagnitude (n : Numeral) :
    ReadsAs n (ofMagnitude (decide (n.sign = ['-'])) n.decimal.magnitude) where
  roundsTo := by
    apply n.decimal.roundsTo_magnitude n.abs_value
    intro hne
    have hnonneg := n.decimal.value_nonneg
    rw [n.value_eq] at hne ⊢
    split
    · rename_i hsign
      rw [if_pos hsign, neg_ne_zero] at hne
      have hpos := hnonneg.lt_of_ne' hne
      simpa [hsign] using hpos
    · rename_i hsign
      simpa [hsign] using hnonneg
  negative_iff := by
    rw [negative_ofMagnitude n.decimal.magnitude_lt_signWeight, decide_eq_true_iff]

/-- What a numeral is read as, by sign and magnitude. -/
theorem readsAs_iff : ReadsAs n x ↔
    (x.negative = true ↔ n.sign = ['-']) ∧ x.magnitude = n.decimal.magnitude := by
  refine ⟨fun h => ⟨h.negative_iff, h.magnitude_eq⟩, ?_⟩
  rintro ⟨hsign, hmagnitude⟩
  have hreads := readsAs_ofMagnitude n
  have hx : x = ofMagnitude (decide (n.sign = ['-'])) n.decimal.magnitude := by
    apply eq_of_magnitude_eq
    · rw [Bool.eq_iff_iff, hsign, hreads.negative_iff]
    · rw [hmagnitude, hreads.magnitude_eq]
  rw [hx]
  exact hreads

end Reading

/-! ## Magnitudes -/

/-- The text of a magnitude is the numeral, which has no sign, is read back, has an exponent
where it has to, and has the fewest digits. -/
structure PrintsMagnitude (m : ℕ) (n : Numeral) : Prop where
  wellFormed : n.WellFormed
  unsigned : n.sign = []
  text : (magnitudeText m).toList = n.text
  magnitude : n.decimal.magnitude = m
  plain : n.exponent = none ↔
    m = 0 ∨ (Decimal.mk 1 (-4)).magnitude ≤ m ∧ m < (Decimal.mk 1 16).magnitude
  plain_value : n.exponent = none ↔ n.decimal.value = 0 ∨
    (Decimal.mk 1 (-4)).value ≤ n.decimal.value ∧ n.decimal.value < (Decimal.mk 1 16).value
  fewest : ∀ (x : Decimal) (k : ℕ), x.digits < 10 ^ k → x.magnitude = m → n.significant ≤ k

theorem printsMagnitude_zero : PrintsMagnitude 0 ⟨[], ['0'], ['0'], none⟩ where
  wellFormed := ⟨.inl rfl, ⟨by simp, by simp⟩, fun _ => rfl, by simp, by simp⟩
  unsigned := rfl
  text := rfl
  magnitude := Decimal.magnitude_eq_zero rfl
  plain := iff_of_true rfl (.inl rfl)
  plain_value := iff_of_true rfl (.inl (Decimal.value_eq_zero_iff.2 rfl))
  fewest _ _ _ _ := Nat.zero_le _

theorem shortest_low : shortest (Decimal.mk 1 (-4)).magnitude = ⟨1, -4⟩ := by
  decide +kernel

theorem shortest_high : shortest (Decimal.mk 1 16).magnitude = ⟨1, 16⟩ := by
  decide +kernel

theorem exists_printsMagnitude {m : ℕ} (hfinite : m < infinite) :
    ∃ n, PrintsMagnitude m n := by
  obtain rfl | hpos := Nat.eq_zero_or_pos m
  · exact ⟨_, printsMagnitude_zero⟩
  have hreads := magnitude_shortest hpos hfinite
  have hdigits : 0 < (shortest m).digits := by
    rw [Nat.pos_iff_ne_zero]
    intro hzero
    rw [Decimal.magnitude_eq_zero hzero] at hreads
    omega
  have htext : magnitudeText m =
      if (Decimal.mk 1 (-4)).magnitude ≤ m ∧ m < (Decimal.mk 1 16).magnitude then
        (shortest m).positional else (shortest m).scientific := by
    rw [magnitudeText, if_neg hfinite.ne, if_neg hpos.ne']
  obtain ⟨n, hn, hplain⟩ : ∃ n, (shortest m).WrittenAs (magnitudeText m) n ∧
      (n.exponent = none ↔
        (Decimal.mk 1 (-4)).magnitude ≤ m ∧ m < (Decimal.mk 1 16).magnitude) := by
    rw [htext]
    split
    · rename_i hrange
      obtain ⟨n, hn, hexponent⟩ := Decimal.exists_positional hdigits
      exact ⟨n, hn, iff_of_true hexponent hrange⟩
    · rename_i hrange
      obtain ⟨n, hn, hexponent⟩ := Decimal.exists_scientific hdigits
      exact ⟨n, hn, iff_of_false hexponent hrange⟩
  refine ⟨n, hn.wellFormed, hn.unsigned, hn.text, ?_, ?_, ?_, ?_⟩
  · rw [Decimal.magnitude_congr hn.value, hreads]
  · rw [hplain, or_iff_right hpos.ne']
  · have hne : ¬(shortest m).value = 0 := mt Decimal.value_eq_zero_iff.1 hdigits.ne'
    rw [hplain, hn.value, or_iff_right hne, ← not_le, ← not_le,
      magnitude_le_iff hpos hfinite shortest_low, magnitude_le_iff hpos hfinite shortest_high]
  · intro x k hx hmagnitude
    rw [Numeral.significant_le_iff hn.wellFormed, hn.value]
    exact hasDigits_shortest hpos hfinite hx hmagnitude

/-! ## Signs -/

/-- The numeral with a sign, if there is one. -/
def signed (negative : Bool) (n : Numeral) : Numeral :=
  { n with sign := if negative then ['-'] else [] }

section Signs

variable {negative : Bool} {n : Numeral}

theorem sign_signed : (signed negative n).sign = ['-'] ↔ negative = true := by
  cases negative <;> simp [signed]

theorem wellFormed_signed (h : n.WellFormed) : (signed negative n).WellFormed where
  sign := by cases negative <;> simp [signed]
  whole := h.whole
  leadingZero := h.leadingZero
  fraction := h.fraction
  exponent := h.exponent

theorem text_signed (h : n.sign = []) :
    (signed negative n).text = (if negative then ['-'] else []) ++ n.text := by
  rw [Numeral.text, Numeral.text, h, List.nil_append]
  rfl

end Signs

/-! ## Numbers -/

/-- What is known about the text of a finite number. -/
structure PrintedAs (x : Binary32) (n : Numeral) : Prop where
  wellFormed : n.WellFormed
  text : x.text.toList = n.text
  /-- The text is read back as the number that it was written for, and as no other. -/
  readsAs_iff : ∀ y, ReadsAs n y ↔ y = x
  /-- There is no exponent for zero, and from the binary32 number nearest to `1e-4`, which lies
  below `1 / 10 ^ 4`, up to the one nearest to `1e16`. -/
  plain_iff : ∀ low high, RoundsTo (1 / 10 ^ 4) low → RoundsTo (10 ^ 16) high →
    (n.exponent = none ↔
      x.isZero = true ∨ low.absValue ≤ x.absValue ∧ x.absValue < high.absValue)
  /-- The same for the decimal that is written. -/
  plain_iff_value : n.exponent = none ↔
    n.value = 0 ∨ 1 / 10 ^ 4 ≤ |n.value| ∧ |n.value| < 10 ^ 16
  /-- A numeral that is read as the number has no fewer digits. -/
  significant_le : ∀ n' : Numeral, n'.WellFormed → ReadsAs n' x → n.significant ≤ n'.significant

/-- The text of a finite number is such a numeral. -/
theorem exists_printedAs {x : Binary32} (hx : x.IsFinite) : ∃ n, PrintedAs x n := by
  obtain ⟨n, hn⟩ := exists_printsMagnitude hx
  have hreads : ReadsAs (signed x.negative n) x := by
    rw [readsAs_iff, sign_signed]
    exact ⟨Iff.rfl, hn.magnitude.symm⟩
  refine ⟨signed x.negative n, wellFormed_signed hn.wellFormed, ?_, ?_, ?_, ?_, ?_⟩
  · rw [text_signed hn.unsigned, ← hn.text, text, isNaN_eq_false hx, if_neg Bool.false_ne_true,
      String.toList_append]
    cases x.negative <;> rfl
  · intro y
    refine ⟨fun h => h.unique hreads, ?_⟩
    rintro rfl
    exact hreads
  · intro low high hlow hhigh
    have hlowDecimal : low.magnitude = (Decimal.mk 1 (-4)).magnitude :=
      Decimal.magnitude_eq_of_roundsTo _ (by norm_num [Decimal.value]) hlow
    have hhighDecimal : high.magnitude = (Decimal.mk 1 16).magnitude :=
      Decimal.magnitude_eq_of_roundsTo _ (by norm_num [Decimal.value]) hhigh
    rw [← not_lt, absValue_lt_iff, absValue_lt_iff, not_lt, hlowDecimal, hhighDecimal, isZero,
      decide_eq_true_iff]
    exact hn.plain
  · have hlow : (Decimal.mk 1 (-4)).value = 1 / 10 ^ 4 := by norm_num [Decimal.value]
    have hhigh : (Decimal.mk 1 16).value = 10 ^ 16 := by norm_num [Decimal.value]
    rw [← abs_eq_zero, Numeral.abs_value, ← hlow, ← hhigh]
    exact hn.plain_value
  · intro n' hn' hreads'
    obtain ⟨y, hdigits, hvalue⟩ := (Numeral.significant_le_iff hn').1 le_rfl
    apply hn.fewest y _ hdigits
    rw [Decimal.magnitude_congr hvalue, ← hreads'.magnitude_eq]

/-! ## Different numbers -/

section Text

variable {x y : Binary32}

theorem text_of_isNaN (h : x.isNaN = true) : x.text = "NaN" :=
  if_pos h

theorem text_of_isInfinite (h : x.isInfinite = true) :
    x.text = if x.negative then "-inf" else "inf" := by
  rw [text, isNaN_eq_false_of_isInfinite h, if_neg Bool.false_ne_true, magnitudeText,
    if_pos (of_decide_eq_true h)]
  cases x.negative <;> rfl

/-- The only letter of the texts of finite numbers is that of the exponent. -/
theorem mem_text_of_isFinite (h : x.IsFinite) {c : Char} (hc : c ∈ x.text.toList) :
    c.isDigit ∨ c ∈ ['-', '+', '.', 'e', 'E'] := by
  obtain ⟨n, hn⟩ := exists_printedAs h
  rw [hn.text] at hc
  exact hn.wellFormed.mem_text hc

theorem isNaN_iff_mem_text : x.isNaN = true ↔ 'N' ∈ x.text.toList := by
  obtain h | h | h := kind_cases x
  · rw [text_of_isNaN h]
    exact iff_of_true h (by decide)
  · rw [isNaN_eq_false_of_isInfinite h, text_of_isInfinite h]
    cases x.negative <;> decide
  · rw [isNaN_eq_false h]
    exact iff_of_false Bool.false_ne_true fun hc => absurd (mem_text_of_isFinite h hc) (by decide)

theorem isInfinite_iff_mem_text : x.isInfinite = true ↔ 'n' ∈ x.text.toList := by
  obtain h | h | h := kind_cases x
  · rw [text_of_isNaN h]
    refine iff_of_false ?_ (by decide)
    intro hinf
    rw [isNaN_eq_false_of_isInfinite hinf] at h
    cases h
  · rw [h, text_of_isInfinite h]
    cases x.negative <;> decide
  · rw [isInfinite_eq_false h]
    exact iff_of_false Bool.false_ne_true fun hc => absurd (mem_text_of_isFinite h hc) (by decide)

/-- A comma ends the text of a number. -/
theorem comma_notMem_text (x : Binary32) : ',' ∉ x.text.toList := by
  obtain h | h | h := kind_cases x
  · rw [text_of_isNaN h]
    decide
  · rw [text_of_isInfinite h]
    cases x.negative <;> decide
  · exact fun hc => absurd (mem_text_of_isFinite h hc) (by decide)

/-- Two numbers with one text are both NaN or the same. -/
theorem text_eq_text_iff : x.text = y.text ↔ (x.isNaN = true ∧ y.isNaN = true) ∨ x = y := by
  constructor
  · intro h
    have hnan : x.isNaN = true ↔ y.isNaN = true := by
      rw [isNaN_iff_mem_text, isNaN_iff_mem_text, h]
    have hinf : x.isInfinite = true ↔ y.isInfinite = true := by
      rw [isInfinite_iff_mem_text, isInfinite_iff_mem_text, h]
    obtain hx | hx | hx := kind_cases x
    · exact .inl ⟨hx, hnan.1 hx⟩
    · right
      have hy := hinf.1 hx
      apply eq_of_magnitude_eq
      · rw [text_of_isInfinite hx, text_of_isInfinite hy] at h
        revert h
        cases x.negative <;> cases y.negative <;> decide
      · rw [of_decide_eq_true hx, of_decide_eq_true hy]
    · right
      have hy : y.IsFinite := by
        obtain hy | hy | hy := kind_cases y
        · exact absurd hx (not_isFinite_of_isNaN (hnan.2 hy))
        · exact absurd hx (not_isFinite_of_isInfinite (hinf.2 hy))
        · exact hy
      obtain ⟨n, hn⟩ := exists_printedAs hx
      obtain ⟨n', hn'⟩ := exists_printedAs hy
      have htext : n.text ++ [] = n'.text ++ [] := by rw [← hn.text, ← hn'.text, h]
      obtain ⟨rfl, _⟩ := Numeral.unique hn.wellFormed hn'.wellFormed noHead_nil noHead_nil htext
      exact (hn'.readsAs_iff x).1 ((hn.readsAs_iff x).2 rfl)
  · rintro (⟨hx, hy⟩ | rfl)
    · rw [text_of_isNaN hx, text_of_isNaN hy]
    · rfl

end Text

end ShaderIntake.Binary32
