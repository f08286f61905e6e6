import ShaderIntake.Proofs.Binary32.Order
import ShaderIntake.Proofs.Float4.MulAdd

/-!
# Multiplying and adding keeps the order of lanes

In each lane a larger addend gives no smaller result, and so does a larger first factor
where the second one is not below zero.
-/

namespace ShaderIntake.Float4

open Binary32 (LessEq)

/-- In each lane, `u * v + w` grows with the addend, and with the first factor where the
second one is at least zero, as long as the results are numbers. -/
theorem mulAdd_monotone (u v w : Float4) (i : ℕ) {a b c : Binary32} (ha : u.lane? i = some a)
    (hb : v.lane? i = some b) (hc : w.lane? i = some c) :
    ∃ r, (mulAddLanes u v w).lane? i = some r ∧
      (∀ (w' : Float4) (c' r' : Binary32), w'.lane? i = some c' →
        (mulAddLanes u v w').lane? i = some r' → LessEq c c' →
          r.isNaN = false → r'.isNaN = false → LessEq r r') ∧
      ∀ (u' : Float4) (a' r' : Binary32), u'.lane? i = some a' →
        (mulAddLanes u' v w).lane? i = some r' → LessEq a a' → LessEq .zero b →
          r.isNaN = false → r'.isNaN = false → LessEq r r' := by
  refine ⟨a.mulAdd b c, lane?_zipLanes ha hb hc, ?_, ?_⟩
  · intro w' c' r' hc' hr' hle hnumber hnumber'
    have hlane : (mulAddLanes u v w').lane? i = some (a.mulAdd b c') := lane?_zipLanes ha hb hc'
    rw [hlane, Option.some.injEq] at hr'
    subst hr'
    exact hle.mulAdd_addend hnumber hnumber'
  · intro u' a' r' ha' hr' hle hnonneg hnumber hnumber'
    have hlane : (mulAddLanes u' v w).lane? i = some (a'.mulAdd b c) := lane?_zipLanes ha' hb hc
    rw [hlane, Option.some.injEq] at hr'
    subst hr'
    exact hle.mulAdd_factor hnonneg hnumber hnumber'

/-- Twice the negative number next to zero, against one more and against twice the largest
number, which overflows. -/
theorem mulAdd_monotone_overflow :
    LessEq ⟨0⟩ ⟨0x3f800000⟩ ∧ LessEq ⟨0x80000001⟩ ⟨0x7f7fffff⟩ ∧ LessEq .zero ⟨0x40000000⟩ ∧
      ∃ r, (mulAddLanes (splat ⟨0x80000001⟩) (splat ⟨0x40000000⟩) (splat ⟨0⟩)).lane? 1 = some r ∧
        r = ⟨0x80000002⟩ ∧ LessEq r ⟨0x3f800000⟩ ∧ LessEq r ⟨0x7f800000⟩ := by
  have haddend : LessEq ⟨0⟩ ⟨0x3f800000⟩ :=
    .finite (by decide) (by decide) (Binary32.value_le_value_iff.2 (by decide))
  have hfactor : LessEq ⟨0x80000001⟩ ⟨0x7f7fffff⟩ :=
    .finite (by decide) (by decide) (Binary32.value_le_value_iff.2 (by decide +kernel))
  have hnonneg : LessEq .zero ⟨0x40000000⟩ :=
    .finite (by decide) (by decide) (Binary32.value_le_value_iff.2 (by decide +kernel))
  have hr : Binary32.mulAdd ⟨0x80000001⟩ ⟨0x40000000⟩ ⟨0⟩ = ⟨0x80000002⟩ := by decide +kernel
  have hmore : Binary32.mulAdd ⟨0x80000001⟩ ⟨0x40000000⟩ ⟨0x3f800000⟩ = ⟨0x3f800000⟩ := by
    decide +kernel
  have hinf : Binary32.mulAdd ⟨0x7f7fffff⟩ ⟨0x40000000⟩ ⟨0⟩ = ⟨0x7f800000⟩ := by decide +kernel
  obtain ⟨r, hlane, hsum, hproduct⟩ := mulAdd_monotone (splat ⟨0x80000001⟩)
    (splat ⟨0x40000000⟩) (splat ⟨0⟩) 1 rfl rfl rfl
  have hr' : r = ⟨0x80000002⟩ := by
    rw [← hr]
    exact (Option.some.inj hlane).symm
  subst hr'
  refine ⟨haddend, hfactor, hnonneg, ⟨0x80000002⟩, hlane, rfl, ?_, ?_⟩
  · exact hsum (splat ⟨0x3f800000⟩) ⟨0x3f800000⟩ _ rfl (congrArg some hmore) haddend (by decide)
      (by decide)
  · exact hproduct (splat ⟨0x7f7fffff⟩) ⟨0x7f7fffff⟩ _ rfl (congrArg some hinf) hfactor hnonneg
      (by decide) (by decide)

end ShaderIntake.Float4
