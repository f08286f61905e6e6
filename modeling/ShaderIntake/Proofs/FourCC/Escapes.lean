import Mathlib.Data.Set.Function
import ShaderIntake.Proofs.Text

/-!
# Escapes in texts of codes

A byte that is escaped makes a text three characters longer (`length_spell`).

The backslash stands for itself, so a printable text, taken as bytes, is shown as the same text
again (`spell_charBytes`), escapes included.  A byte that stands next to its own escape can
change places with it (`spell_charBytes_append`), so texts of more bytes than four are ambiguous.
With four bytes or fewer, all of one number, they are not (`injOn_spell_iff`), and four is what a
code has (`texts_tell_codes_apart`).
-/

namespace ShaderIntake.FourCC

/-! ## Lengths -/

theorem length_spell (bytes : List UInt8) :
    (spell bytes).length = bytes.length + 3 * bytes.countP (fun b => ¬IsPrintable b) := by
  induction bytes with
  | nil => rfl
  | cons b rest ih =>
    rw [spell_cons, List.length_append, ih, List.length_cons]
    by_cases hb : IsPrintable b
    · rw [byteText_of_printable hb, List.countP_cons_of_neg (by simp [hb]), List.length_singleton]
      omega
    · rw [byteText_of_not_printable hb, List.countP_cons_of_pos (by simp [hb])]
      simp only [List.length_cons, List.length_nil]
      omega

theorem length_text (f : FourCC) :
    f.text.length = 4 + 3 * [f.b0, f.b1, f.b2, f.b3].countP (fun b => ¬IsPrintable b) := by
  rw [← String.length_toList, toList_text, length_spell]
  rfl

example : (FourCC.mk 0x41 0x00 0xff 0x5a).text = "A\\x00\\xffZ" := by decide

/-! ## Texts taken as bytes -/

/-- A byte for each character. -/
def charBytes (text : List Char) : List UInt8 :=
  text.map Char.toUInt8

theorem byteText_toUInt8 {c : Char} (hc : Text.IsPrintable c) : byteText c.toUInt8 = [c] := by
  have htoNat : c.toUInt8.toNat = c.toNat := by
    rw [← Char.toUInt8_val, UInt32.toNat_toUInt8]
    exact Nat.mod_eq_of_lt (Nat.lt_of_le_of_lt hc.2 (by decide))
  have hprintable : IsPrintable c.toUInt8 := by
    rw [IsPrintable, htoNat]
    exact hc
  rw [byteText_of_printable hprintable, htoNat, Char.ofNat_toNat]

/-- A printable text is shown as it is. -/
theorem spell_charBytes {text : List Char} (h : ∀ c ∈ text, Text.IsPrintable c) :
    spell (charBytes text) = text := by
  induction text with
  | nil => rfl
  | cons c text ih =>
    rw [List.forall_mem_cons] at h
    rw [charBytes, List.map_cons, spell_cons, byteText_toUInt8 h.1, ← charBytes, ih h.2]
    rfl

/-- A byte and the characters of its text can change places. -/
theorem spell_charBytes_append (b : UInt8) (rest : List UInt8) :
    spell (charBytes (byteText b) ++ b :: rest) =
      spell (b :: (charBytes (byteText b) ++ rest)) := by
  have hescape : spell (charBytes (byteText b)) = byteText b :=
    spell_charBytes fun _ hc => isPrintable_of_mem_byteText hc
  simp only [spell, List.flatMap_append, List.flatMap_cons] at hescape ⊢
  rw [hescape]

example : spell [0x5c, 0x78, 0x30, 0x30, 0x00] = spell [0x00, 0x5c, 0x78, 0x30, 0x30] := by decide

/-- Byte strings of one length can be told from their texts exactly if they have at most four
bytes.  With five, a zero byte can stand before or behind the four that spell its escape. -/
theorem injOn_spell_iff (n : Nat) : Set.InjOn spell {bytes | bytes.length = n} ↔ n ≤ 4 := by
  constructor
  · intro hinj
    by_contra hn
    have hfour : (charBytes (byteText 0)).length = 4 := by decide
    have hbehind : (charBytes (byteText 0) ++ 0 :: List.replicate (n - 5) 0).length = n := by
      rw [List.length_append, hfour, List.length_cons, List.length_replicate]
      omega
    have hbefore : (0 :: (charBytes (byteText 0) ++ List.replicate (n - 5) 0)).length = n := by
      rw [List.length_cons, List.length_append, hfour, List.length_replicate]
      omega
    have heq := hinj hbehind hbefore (spell_charBytes_append 0 _)
    exact absurd (List.cons.inj heq).1 (by decide)
  · intro hn as has bs hbs h
    exact spell_inj (has.trans hbs.symm) (has.trans_le hn) h

/-! ## Codes -/

/-- A code can be told from its text and from its quoted text, although the backslash is not
escaped and a code may spell an escape.  The text has one character for each of the four bytes
and three more for each byte outside the range from `0x20` to `0x7e`, and every character takes
one byte. -/
theorem texts_tell_codes_apart (f : FourCC) :
    (∀ g : FourCC, f.text = g.text ↔ f = g) ∧
    (∀ g : FourCC, f.quoted = g.quoted ↔ f = g) ∧
    f.text.length = 4 + 3 * [f.b0, f.b1, f.b2, f.b3].countP
      (fun b => ¬(0x20 ≤ b.toNat ∧ b.toNat ≤ 0x7e)) ∧
    f.text.utf8ByteSize = f.text.length :=
  ⟨fun _ => text_inj, fun _ => quoted_inj, f.length_text, f.printable_text.utf8ByteSize⟩

end ShaderIntake.FourCC
