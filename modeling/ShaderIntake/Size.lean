/-!
# Sizes

Sizes and positions in a byte string are kept below `2 ^ 64`.  `Size.add?` and
`Size.mul?` are sum and product within that bound.
-/

namespace ShaderIntake.Size

/-- The first natural number that is no size. -/
def limit : Nat := 0x10000000000000000

/-- The sum of two sizes, when it is a size. -/
def add? (a b : Nat) : Option Nat :=
  if a + b < limit then some (a + b) else none

/-- The product of two sizes, when it is a size. -/
def mul? (a b : Nat) : Option Nat :=
  if a * b < limit then some (a * b) else none

theorem add?_eq_some {a b : Nat} (h : a + b < limit) : add? a b = some (a + b) := by
  simp [add?, h]

theorem eq_of_add?_eq_some {a b c : Nat} (h : add? a b = some c) : a + b = c := by
  by_cases hlt : a + b < limit
  · rw [add?_eq_some hlt] at h
    exact Option.some.inj h
  · rw [add?, if_neg hlt] at h
    cases h

theorem mul?_eq_some {a b : Nat} (h : a * b < limit) : mul? a b = some (a * b) := by
  simp [mul?, h]

end ShaderIntake.Size
