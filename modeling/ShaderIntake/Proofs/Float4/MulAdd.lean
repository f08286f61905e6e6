import ShaderIntake.Float4
import ShaderIntake.Proofs.Binary32.Rounding

/-!
# Multiplying and adding four lanes

`Float4.mulAddLanes` rounds twice in each lane, once after the product and once after the
sum.  `mulAdd_rounds_twice` states that against `RoundsTo`, which knows nothing of how the
product and the sum are computed.
-/

namespace ShaderIntake

namespace Binary32

variable {p x y z : Binary32}

/-- An infinity absorbs a finite number. -/
theorem add_of_isInfinite (hp : p.isInfinite = true) (hz : z.IsFinite) : p.add z = p := by
  have hmagnitude : p.magnitude = infinite := of_decide_eq_true hp
  have hnan : p.isNaN = false := by
    rw [isNaN, hmagnitude]
    rfl
  rw [add, hnan, hp, isNaN_eq_false hz, isInfinite_eq_false hz]
  rfl

/-- `x * y + z` is rounded after the product, whichever rounding of the product is taken,
and after the sum. -/
theorem mulAdd_of_roundsTo (hx : x.IsFinite) (hy : y.IsFinite) (hz : z.IsFinite)
    (hp : RoundsTo (x.value * y.value) p) :
    if p.isInfinite then x.mulAdd y z = p else RoundsTo (p.value + z.value) (x.mulAdd y z) := by
  have hproduct := roundsTo_mul hx hy
  have hmagnitude := hp.magnitude_eq hproduct
  split
  · rename_i hinf
    have hq : x.value * y.value ≠ 0 := by
      intro hzero
      rw [hzero] at hp
      rw [isInfinite, hp.magnitude_eq_zero] at hinf
      exact absurd hinf (by decide)
    rw [mulAdd, ← hp.eq hproduct hq, add_of_isInfinite hinf hz]
  · rename_i hinf
    have hfinite : (x.mul y).IsFinite := by
      have hp_finite := hp.isFinite_or_isInfinite.resolve_right hinf
      rw [IsFinite, ← hmagnitude]
      exact hp_finite
    rw [hp.value_eq hproduct]
    exact roundsTo_add hfinite hz

end Binary32

namespace Float4

open Binary32 (RoundsTo)

/-- A lane of a result comes from the same lane of each argument. -/
theorem lane?_zipLanes {f : Binary32 → Binary32 → Binary32 → Binary32} {u v w : Float4} {i : ℕ}
    {a b c : Binary32} (ha : u.lane? i = some a) (hb : v.lane? i = some b)
    (hc : w.lane? i = some c) : (zipLanes f u v w).lane? i = some (f a b c) := by
  match i with
  | 0 | 1 | 2 | 3 =>
    cases ha
    cases hb
    cases hc
    rfl
  | i + 4 => cases ha

/-- Each lane of `u * v + w` is rounded twice.  The exact product of two finite lanes rounds
to some `p`.  If `p` is an infinity it is the result; otherwise the result is the exact
sum of `p` and the third lane, rounded. -/
theorem mulAdd_rounds_twice (u v w : Float4) (i : ℕ) {a b c : Binary32}
    (ha : u.lane? i = some a) (hb : v.lane? i = some b) (hc : w.lane? i = some c)
    (haFinite : a.IsFinite) (hbFinite : b.IsFinite) (hcFinite : c.IsFinite) :
    ∃ r, (mulAddLanes u v w).lane? i = some r ∧ (u.mulAdd v w).lane? i = some r ∧
      (∃ p, RoundsTo (a.value * b.value) p) ∧
      ∀ p, RoundsTo (a.value * b.value) p →
        if p.isInfinite then r = p else RoundsTo (p.value + c.value) r := by
  have hlane : (mulAddLanes u v w).lane? i = some (a.mulAdd b c) := lane?_zipLanes ha hb hc
  refine ⟨a.mulAdd b c, hlane, hlane, ?_, ?_⟩
  · exact ⟨a.mul b, Binary32.roundsTo_mul haFinite hbFinite⟩
  · intro p hp
    exact Binary32.mulAdd_of_roundsTo haFinite hbFinite hcFinite hp

/-- One and the smallest step above it, squared, less what the square rounds to: the low
bits of the square are gone after the first rounding, and nothing is left for the second. -/
theorem mulAdd_rounds_twice_lowBits :
    RoundsTo (Binary32.value ⟨0x3f800001⟩ * Binary32.value ⟨0x3f800001⟩) ⟨0x3f800002⟩ ∧
      (mulAddLanes (splat ⟨0x3f800001⟩) (splat ⟨0x3f800001⟩) (splat ⟨0xbf800002⟩)).lane? 3 =
        some ⟨0⟩ ∧
      RoundsTo (Binary32.value ⟨0x3f800002⟩ + Binary32.value ⟨0xbf800002⟩) ⟨0⟩ := by
  have hone : Binary32.IsFinite ⟨0x3f800001⟩ := by decide
  have hless : Binary32.IsFinite ⟨0xbf800002⟩ := by decide
  have hmul : Binary32.mul ⟨0x3f800001⟩ ⟨0x3f800001⟩ = ⟨0x3f800002⟩ := by decide +kernel
  have hadd : Binary32.add ⟨0x3f800002⟩ ⟨0xbf800002⟩ = ⟨0⟩ := by decide +kernel
  have hlane : (mulAddLanes (splat ⟨0x3f800001⟩) (splat ⟨0x3f800001⟩)
      (splat ⟨0xbf800002⟩)).lane? 3 = some ⟨0⟩ := by
    have hsum : Binary32.mulAdd ⟨0x3f800001⟩ ⟨0x3f800001⟩ ⟨0xbf800002⟩ = ⟨0⟩ := by
      rw [Binary32.mulAdd, hmul, hadd]
    exact congrArg some hsum
  have hproduct : RoundsTo (Binary32.value ⟨0x3f800001⟩ * Binary32.value ⟨0x3f800001⟩)
      ⟨0x3f800002⟩ := by
    rw [← hmul]
    exact Binary32.roundsTo_mul hone hone
  obtain ⟨r, hr, _, _, hrounds⟩ := mulAdd_rounds_twice (splat ⟨0x3f800001⟩)
    (splat ⟨0x3f800001⟩) (splat ⟨0xbf800002⟩) 3 rfl rfl rfl hone hone hless
  rw [hlane, Option.some.injEq] at hr
  rw [← hr] at hrounds
  exact ⟨hproduct, hlane, hrounds _ hproduct⟩

end Float4

end ShaderIntake
