import ShaderIntake.Proofs.Binary32.Negation
import ShaderIntake.Proofs.Float4.MulAdd

/-!
# Symmetries of multiplying and adding

The factors can be exchanged, a sign can be taken from either of them, and changing the
sign of the product and of the addend changes the sign of the result.
-/

namespace ShaderIntake.Float4

open Binary32 (IsNegation)

/-- The vector with the other sign in every lane. -/
def neg (v : Float4) : Float4 :=
  ⟨v.x.neg, v.y.neg, v.z.neg, v.w.neg⟩

theorem lane?_neg {v : Float4} {i : ℕ} {a : Binary32} (h : v.lane? i = some a) :
    v.neg.lane? i = some a.neg := by
  match i with
  | 0 | 1 | 2 | 3 =>
    cases h
    rfl
  | i + 4 => cases h

theorem exists_lanes_of_zipLanes {f : Binary32 → Binary32 → Binary32 → Binary32}
    {u v w : Float4} {i : ℕ} {r : Binary32} (h : (zipLanes f u v w).lane? i = some r) :
    ∃ a b c, u.lane? i = some a ∧ v.lane? i = some b ∧ w.lane? i = some c ∧ r = f a b c := by
  match i with
  | 0 | 1 | 2 | 3 =>
    cases h
    exact ⟨_, _, _, rfl, rfl, rfl, rfl⟩
  | i + 4 => cases h

theorem mulAddLanes_comm (u v w : Float4) : mulAddLanes u v w = mulAddLanes v u w := by
  simp only [mulAddLanes, zipLanes, Binary32.mulAdd, Binary32.mul_comm u.x, Binary32.mul_comm u.y,
    Binary32.mul_comm u.z, Binary32.mul_comm u.w]

theorem mulAddLanes_neg_left (u v w : Float4) :
    mulAddLanes u.neg v w = mulAddLanes u v.neg w := by
  simp only [mulAddLanes, zipLanes, Binary32.mulAdd, neg, Binary32.neg_mul_eq_mul_neg]

/-- `u * v + w` is the same with the factors exchanged, and with the sign of the one factor
changed it is what it is with the sign of the other one changed.  With the signs of a factor
and of the addend changed each lane changes its sign, except that a zero stays a zero of
some sign and a NaN a NaN.  The method form is the same function. -/
theorem mulAdd_symmetries (u v w : Float4) :
    mulAddLanes u v w = mulAddLanes v u w ∧
      mulAddLanes u.neg v w = mulAddLanes u v.neg w ∧
      (∀ i r, (mulAddLanes u v w).lane? i = some r →
        ∃ s, (mulAddLanes u.neg v w.neg).lane? i = some s ∧ IsNegation r s) ∧
      u.mulAdd v w = mulAddLanes u v w := by
  refine ⟨mulAddLanes_comm u v w, mulAddLanes_neg_left u v w, ?_, rfl⟩
  intro i r hr
  obtain ⟨a, b, c, ha, hb, hc, rfl⟩ := exists_lanes_of_zipLanes hr
  exact ⟨a.neg.mulAdd b c.neg, lane?_zipLanes (lane?_neg ha) hb (lane?_neg hc),
    Binary32.isNegation_mulAdd a b c⟩

end ShaderIntake.Float4
