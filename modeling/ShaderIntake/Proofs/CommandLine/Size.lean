import ShaderIntake.CommandLine
import ShaderIntake.Proofs.Json.Digits

/-!
# Sizes in arguments

A size may have a plus sign and any number of zeros in front.  `Spells` is the relation between
such a text and the number, and `parseSize?_eq_some_iff` says that exactly the spellings of the
numbers below `2 ^ 64` are read, each as the number it spells.
-/

namespace ShaderIntake.CommandLine

open Json (IsDigits digitsValue isDigits_zeros_append_toDigits)

/-- A plus sign or nothing. -/
def IsSign (sign : List Char) : Prop :=
  sign = [] ∨ sign = ['+']

/-- A plus sign or nothing, and at least one digit behind it. -/
def IsDecimal (text : List Char) : Prop :=
  ∃ sign digits, IsSign sign ∧ IsDigits digits ∧ text = sign ++ digits

/-- The digits of a number, perhaps with zeros and a plus sign in front. -/
def Spells (text : List Char) (n : Nat) : Prop :=
  ∃ sign zeros, IsSign sign ∧ text = sign ++ (List.replicate zeros '0' ++ Nat.toDigits 10 n)

theorem Spells.isDecimal {text : List Char} {n : Nat} (h : Spells text n) : IsDecimal text := by
  obtain ⟨sign, zeros, hsign, rfl⟩ := h
  exact ⟨sign, _, hsign, isDigits_zeros_append_toDigits zeros n, rfl⟩

/-- Digits have no sign, so what stands in front of them is the sign. -/
theorem parseSize?_sign_append {sign digits : List Char} (hsign : IsSign sign)
    (hdigits : IsDigits digits) :
    parseSize? (sign ++ digits) =
      if digitsValue digits < Size.limit then some (digitsValue digits) else none := by
  have hall : digits.all Char.isDigit = true := List.all_eq_true.2 hdigits.2
  rw [digitsValue]
  rcases hsign with rfl | rfl
  · obtain ⟨c, rest, rfl⟩ := List.exists_cons_of_ne_nil hdigits.1
    have hplus : c ≠ '+' := by
      rintro rfl
      exact absurd (hdigits.2 '+' (List.mem_cons_self ..)) (by decide)
    simp only [parseSize?, List.nil_append]
    split
    · rename_i heq
      exact absurd (List.cons.inj heq).1 hplus
    · simp only [hdigits.1, hall, ne_eq, not_false_eq_true, true_and]
  · simp only [parseSize?, List.singleton_append, hdigits.1, hall, ne_eq, not_false_eq_true,
      true_and]

/-- Only digits behind at most a plus sign are read. -/
theorem exists_digits_of_parseSize? {text : List Char} {n : Nat} (h : parseSize? text = some n) :
    ∃ sign digits, IsSign sign ∧ IsDigits digits ∧ text = sign ++ digits := by
  unfold parseSize? at h
  dsimp only at h
  split at h
  · rename_i rest
    obtain ⟨hne, hall, -⟩ := (Option.ite_none_right_eq_some.1 h).1
    exact ⟨['+'], rest, .inr rfl, ⟨hne, List.all_eq_true.1 hall⟩, rfl⟩
  · obtain ⟨hne, hall, -⟩ := (Option.ite_none_right_eq_some.1 h).1
    exact ⟨[], text, .inl rfl, ⟨hne, List.all_eq_true.1 hall⟩, rfl⟩

theorem Spells.parseSize? {text : List Char} {n : Nat} (h : Spells text n) :
    parseSize? text = if n < Size.limit then some n else none := by
  obtain ⟨sign, zeros, hsign, rfl⟩ := h
  rw [parseSize?_sign_append hsign (isDigits_zeros_append_toDigits zeros n),
    Json.digitsValue_zeros_append, Json.digitsValue_toDigits]

theorem parseSize?_eq_some_iff {text : List Char} {n : Nat} :
    parseSize? text = some n ↔ Spells text n ∧ n < Size.limit := by
  constructor
  · intro h
    obtain ⟨sign, digits, hsign, hdigits, rfl⟩ := exists_digits_of_parseSize? h
    rw [parseSize?_sign_append hsign hdigits] at h
    split at h
    · rename_i hlt
      obtain rfl := Option.some.inj h
      obtain ⟨k, hk⟩ := Json.exists_eq_zeros_append_toDigits hdigits
      exact ⟨⟨sign, k, hsign, congrArg (sign ++ ·) hk⟩, hlt⟩
    · cases h
  · rintro ⟨hspells, hlt⟩
    rw [hspells.parseSize?, if_pos hlt]

/-- No number, or one that is too large. -/
theorem parseSize?_eq_none {text : List Char}
    (h : ¬IsDecimal text ∨ ∃ n, Spells text n ∧ Size.limit ≤ n) : parseSize? text = none := by
  rcases h with hdecimal | ⟨n, hspells, hle⟩
  · refine Option.eq_none_iff_forall_ne_some.2 fun n hread => hdecimal ?_
    exact (parseSize?_eq_some_iff.1 hread).1.isDecimal
  · rw [hspells.parseSize?, if_neg (Nat.not_lt.2 hle)]

end ShaderIntake.CommandLine
