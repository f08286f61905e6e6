import ShaderIntake.Float4
import ShaderIntake.Proofs.Binary32.Text

/-!
# The texts of vectors

A vector is known by its text, up to the payloads of NaNs (`text_identifies`): the commas
say where the text of a lane ends, and lanes with one text are the same number.
-/

namespace ShaderIntake.Float4

open Binary32 (PrintedAs)

theorem text_eq_intercalate (v : Float4) :
    v.text = "(" ++ ", ".intercalate (v.toList.map Binary32.text) ++ ")" := by
  simp [text, toList, String.append_assoc]

example : (Float4.mk ⟨0x80000000⟩ ⟨0x38d1b717⟩ ⟨0x5a0e1bca⟩ ⟨0x7fc00000⟩).text =
    "(-0.0, 0.0001, 1e16, NaN)" := by decide +kernel

theorem toList_text (v : Float4) : v.text.toList =
    '(' :: (v.x.text.toList ++ ',' :: ' ' :: (v.y.text.toList ++ ',' :: ' ' ::
      (v.z.text.toList ++ ',' :: ' ' :: (v.w.text.toList ++ [')'])))) := by
  simp [text]

/-- The text of a lane ends at the comma behind it. -/
theorem lane_text_unique {a b : Binary32} {t u : List Char}
    (h : a.text.toList ++ ',' :: ' ' :: t = b.text.toList ++ ',' :: ' ' :: u) :
    a.text = b.text ∧ t = u := by
  have hne (x : Binary32) : ∀ c ∈ x.text.toList, c ≠ ',' := by
    rintro c hc rfl
    exact x.comma_notMem_text hc
  obtain ⟨htext, hrest⟩ := Json.append_unique (hne a) (hne b) (Json.noHead_cons.2 (by simp))
    (Json.noHead_cons.2 (by simp)) h
  exact ⟨String.toList_inj.1 htext, (List.cons.inj (List.cons.inj hrest).2).2⟩

theorem text_eq_text_iff {u v : Float4} : u.text = v.text ↔
    ∀ i a b, u.lane? i = some a → v.lane? i = some b → a.text = b.text := by
  constructor
  · intro h
    have hchars : u.text.toList = v.text.toList := by rw [h]
    rw [toList_text, toList_text] at hchars
    obtain ⟨hx, hchars⟩ := lane_text_unique (List.cons.inj hchars).2
    obtain ⟨hy, hchars⟩ := lane_text_unique hchars
    obtain ⟨hz, hchars⟩ := lane_text_unique hchars
    have hw : u.w.text = v.w.text := String.toList_inj.1 (List.append_cancel_right hchars)
    intro i a b ha hb
    match i with
    | 0 | 1 | 2 | 3 =>
      cases ha
      cases hb
      assumption
    | i + 4 => cases ha
  · intro h
    rw [text, text, h 0 u.x v.x rfl rfl, h 1 u.y v.y rfl rfl, h 2 u.z v.z rfl rfl,
      h 3 u.w v.w rfl rfl]

/-- The text of a vector identifies it: two vectors have one text exactly if in each lane
both are NaN or both have the same bits.  The text is that of the lanes, and the text of a
finite lane is a numeral that is read back to the same bits, without an exponent for zero
and from the number nearest to `1e-4` up to the one nearest to `1e16` and with one otherwise,
and no numeral with fewer significant digits is read back. -/
theorem text_identifies (u v : Float4) :
    (u.text = v.text ↔ ∀ i a b, u.lane? i = some a → v.lane? i = some b →
      (a.isNaN = true ∧ b.isNaN = true) ∨ a.bits = b.bits) ∧
    u.text = "(" ++ ", ".intercalate (u.toList.map Binary32.text) ++ ")" ∧
    ∀ i a, u.lane? i = some a → a.IsFinite → ∃ n, PrintedAs a n := by
  refine ⟨?_, text_eq_intercalate u, fun i a _ ha => Binary32.exists_printedAs ha⟩
  have hbits (a b : Binary32) : a.bits = b.bits ↔ a = b := by
    rw [← Binary32.mk.injEq]
  simp only [text_eq_text_iff, Binary32.text_eq_text_iff, hbits]

end ShaderIntake.Float4
