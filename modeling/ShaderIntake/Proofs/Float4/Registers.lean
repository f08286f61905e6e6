import Mathlib.Data.List.Forall2
import ShaderIntake.Proofs.Binary32.Similar
import ShaderIntake.Proofs.Float4.MulAdd

/-!
# Runs of register instructions

A run of `MulAddStep`s never moves anything from one lane to another.  `SimilarLanes i j`
relates two vectors by lane `i` of the one and lane `j` of the other, and `SimilarFiles i j`
relates two register files by all their vectors.  One step keeps the relation
(`SimilarFiles.run`), and so does a run of any length.

Lanes are compared up to `Binary32.Similar`, so the sign of a zero and the payload of a NaN
are never seen later as a difference of numbers either.
-/

namespace ShaderIntake

namespace Float4

/-- Lane numbers can be written as numerals. -/
instance : NeZero lanes := ⟨by decide⟩

/-- Lane `i` of `u` and lane `j` of `v` are similar. -/
def SimilarLanes (i j : Fin lanes) (u v : Float4) : Prop :=
  ∃ x y, u.lane? i = some x ∧ v.lane? j = some y ∧ x.Similar y

variable {i j : Fin lanes}

theorem similarLanes_zero : SimilarLanes i j zero zero := by
  have hlane : ∀ k : Fin lanes, zero.lane? k = some .zero := by decide
  exact ⟨.zero, .zero, hlane i, hlane j, .refl _⟩

theorem SimilarLanes.mulAddLanes {u v w u' v' w' : Float4} (hu : SimilarLanes i j u u')
    (hv : SimilarLanes i j v v') (hw : SimilarLanes i j w w') :
    SimilarLanes i j (mulAddLanes u v w) (mulAddLanes u' v' w') := by
  obtain ⟨a, a', ha, ha', haSimilar⟩ := hu
  obtain ⟨b, b', hb, hb', hbSimilar⟩ := hv
  obtain ⟨c, c', hc, hc', hcSimilar⟩ := hw
  exact ⟨a.mulAdd b c, a'.mulAdd b' c', lane?_zipLanes ha hb hc, lane?_zipLanes ha' hb' hc',
    haSimilar.mulAdd hbSimilar hcSimilar⟩

end Float4

open Float4 (SimilarLanes)

/-! ## Register files -/

/-- Two register files of one size, similar in lane `i` of the first and lane `j` of the
second. -/
def SimilarFiles (i j : Fin Float4.lanes) (regs regs' : List Float4) : Prop :=
  List.Forall₂ (SimilarLanes i j) regs regs'

namespace SimilarFiles

variable {i j : Fin Float4.lanes} {regs regs' : List Float4}

/-- A register that is not there reads as zero in both files. -/
theorem getD (h : SimilarFiles i j regs regs') (r : ℕ) :
    SimilarLanes i j (regs.getD r .zero) (regs'.getD r .zero) := by
  induction h generalizing r with
  | nil => exact Float4.similarLanes_zero
  | cons hhead _ ih =>
    cases r with
    | zero => exact hhead
    | succ r => exact ih r

theorem set (h : SimilarFiles i j regs regs') (r : ℕ) {v v' : Float4}
    (hv : SimilarLanes i j v v') : SimilarFiles i j (regs.set r v) (regs'.set r v') := by
  induction h generalizing r with
  | nil => exact .nil
  | cons hhead htail ih =>
    cases r with
    | zero => exact .cons hv htail
    | succ r => exact .cons hhead (ih r)

/-- One step keeps two files similar. -/
theorem run (h : SimilarFiles i j regs regs') (s : MulAddStep) :
    SimilarFiles i j (s.run regs) (s.run regs') :=
  h.set s.d ((h.getD s.a).mulAddLanes (h.getD s.b) (h.getD s.c))

end SimilarFiles

/-! ## Runs -/

/-- The registers after all steps, the first step first. -/
def MulAddStep.runAll (steps : List MulAddStep) (regs : List Float4) : List Float4 :=
  steps.foldl (fun regs s => s.run regs) regs

/-- After a run of any length, lane `i` of each register of the one file is similar to lane
`j` of the same register of the other, whatever the other lanes hold. -/
theorem MulAddStep.runAll_keeps_lanes_similar (steps : List MulAddStep) {i j : Fin Float4.lanes}
    {regs regs' : List Float4} (h : SimilarFiles i j regs regs') :
    SimilarFiles i j (runAll steps regs) (runAll steps regs') := by
  -- Every step changes both files, so the induction is over all pairs of them.
  induction steps generalizing regs regs' with
  | nil => exact h
  | cons s rest ih => exact ih (h.run s)

/-- A negative zero, a NaN and a one in lane 0. -/
def firstLaneFile : List Float4 :=
  [⟨⟨0x80000000⟩, ⟨0x40400000⟩, .nan, .zero⟩, ⟨⟨0x7f800001⟩, .zero, .zero, .zero⟩,
    .splat ⟨0x3f800000⟩]

/-- A positive zero, another NaN and a one in lane 2, and nothing in common elsewhere. -/
def thirdLaneFile : List Float4 :=
  [⟨.nan, .nan, .zero, ⟨0x7f800000⟩⟩, ⟨.zero, .zero, ⟨0xffc00000⟩, .zero⟩,
    ⟨⟨0xff800000⟩, ⟨0x40400000⟩, ⟨0x3f800000⟩, .nan⟩]

/-- The zeros keep their signs through the first step, and the sum in the second is the same
number in both files. -/
theorem MulAddStep.runAll_keeps_lanes_similar_zeros :
    SimilarFiles 0 2 firstLaneFile thirdLaneFile ∧
      SimilarFiles 0 2 (runAll [⟨0, 0, 2, 0⟩, ⟨2, 0, 0, 2⟩, ⟨1, 1, 2, 0⟩] firstLaneFile)
        (runAll [⟨0, 0, 2, 0⟩, ⟨2, 0, 0, 2⟩, ⟨1, 1, 2, 0⟩] thirdLaneFile) := by
  have hfiles : SimilarFiles 0 2 firstLaneFile thirdLaneFile := by
    refine .cons ⟨_, _, rfl, rfl, ?_⟩ (.cons ⟨_, _, rfl, rfl, ?_⟩ (.cons ⟨_, _, rfl, rfl, ?_⟩ .nil))
    · exact .of_isZero (by decide) (by decide)
    · exact .of_isNaN (by decide) (by decide)
    · exact .refl _
  exact ⟨hfiles, runAll_keeps_lanes_similar _ hfiles⟩

end ShaderIntake
