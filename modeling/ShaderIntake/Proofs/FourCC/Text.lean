import ShaderIntake.FourCC

/-!
# Texts of codes

A code is shown by its text (`FourCC.text_inj`), although the backslash stands for itself
there: four bytes that spell an escape read like the beginning of another code, and there
they end.

`spell` is the text of any number of bytes.  `not_spell_eq_spell` is the point where two
readings part, a byte that is shown as it is against one that is escaped; with at most four
bytes on each side the first reading has run out when the second has three bytes to go.
-/

namespace ShaderIntake.FourCC

/-! ## Single bytes -/

/-- The byte is shown as the character that it is. -/
def IsPrintable (b : UInt8) : Prop :=
  0x20 ≤ b.toNat ∧ b.toNat ≤ 0x7e

instance (b : UInt8) : Decidable (IsPrintable b) :=
  inferInstanceAs (Decidable (_ ∧ _))

theorem byteText_of_printable {b : UInt8} (h : IsPrintable b) :
    byteText b = [Char.ofNat b.toNat] :=
  if_pos h

theorem byteText_of_not_printable {b : UInt8} (h : ¬IsPrintable b) :
    byteText b = ['\\', 'x', Nat.digitChar (b.toNat / 16), Nat.digitChar (b.toNat % 16)] :=
  if_neg h

theorem byteText_ne_nil (b : UInt8) : byteText b ≠ [] := by
  rw [byteText]
  split <;> simp

theorem toNat_charOfByte (b : UInt8) : (Char.ofNat b.toNat).toNat = b.toNat := by
  have hvalid : b.toNat.isValidChar := .inl (by have := b.toNat_lt; omega)
  rw [Char.ofNat, dif_pos hvalid]
  rfl

theorem charOfByte_inj {a b : UInt8} (h : Char.ofNat a.toNat = Char.ofNat b.toNat) : a = b := by
  rw [← UInt8.toNat_inj, ← toNat_charOfByte a, h, toNat_charOfByte]

theorem digitChar_inj {m n : Nat} (hm : m < 16) (hn : n < 16)
    (h : Nat.digitChar m = Nat.digitChar n) : m = n := by
  have hall : ∀ i : Fin 16, ∀ j : Fin 16, Nat.digitChar i = Nat.digitChar j → i = j := by decide
  exact congrArg Fin.val (hall ⟨m, hm⟩ ⟨n, hn⟩ h)

/-! ## Bytes one after the other -/

/-- The text of bytes. -/
def spell (bytes : List UInt8) : List Char :=
  bytes.flatMap byteText

theorem spell_cons (b : UInt8) (bytes : List UInt8) :
    spell (b :: bytes) = byteText b ++ spell bytes :=
  List.flatMap_cons

theorem spell_eq_nil {bytes : List UInt8} (h : spell bytes = []) : bytes = [] := by
  cases bytes with
  | nil => rfl
  | cons b rest =>
    rw [spell_cons, List.append_eq_nil_iff] at h
    exact absurd h.1 (byteText_ne_nil b)

/-- A character other than the backslash is shown for one byte. -/
theorem exists_cons_of_spell {bytes : List UInt8} {c : Char} {text : List Char}
    (hc : c ≠ '\\') (h : spell bytes = c :: text) :
    ∃ b rest, bytes = b :: rest ∧ spell rest = text := by
  cases bytes with
  | nil => cases h
  | cons b rest =>
    refine ⟨b, rest, rfl, ?_⟩
    by_cases hb : IsPrintable b
    · rw [spell_cons, byteText_of_printable hb] at h
      exact (List.cons.inj h).2
    · rw [spell_cons, byteText_of_not_printable hb] at h
      exact absurd (List.cons.inj h).1.symm hc

/-- Where one text goes on with a byte and the other with an escape, three more bytes of the
first stand against the rest of the escape, so the other is longer. -/
theorem not_spell_eq_spell {a b : UInt8} {as bs : List UInt8} (ha : IsPrintable a)
    (hb : ¬IsPrintable b) (hlength : as.length = bs.length) (hshort : as.length ≤ 3) :
    spell (a :: as) ≠ spell (b :: bs) := by
  intro h
  rw [spell_cons, spell_cons, byteText_of_printable ha, byteText_of_not_printable hb] at h
  have hescape := (List.cons.inj h).2
  obtain ⟨_, as₁, rfl, hfirst⟩ := exists_cons_of_spell (by decide) hescape
  obtain ⟨_, as₂, rfl, hsecond⟩ := exists_cons_of_spell (Nat.digitChar_ne _ rfl) hfirst
  obtain ⟨_, rest, rfl, hrest⟩ := exists_cons_of_spell (Nat.digitChar_ne _ rfl) hsecond
  simp only [List.length_cons] at hlength hshort
  have hnil : rest = [] := List.length_eq_zero_iff.1 (by omega)
  rw [hnil] at hrest
  have hbs := spell_eq_nil hrest.symm
  rw [hbs, List.length_nil] at hlength
  omega

/-- Up to four bytes can be told from their text and their number. -/
theorem spell_inj {as bs : List UInt8} (hlength : as.length = bs.length)
    (hshort : as.length ≤ 4) (h : spell as = spell bs) : as = bs := by
  induction as generalizing bs with
  | nil => exact (List.length_eq_zero_iff.1 hlength.symm).symm
  | cons a as ih =>
    cases bs with
    | nil => cases hlength
    | cons b bs =>
      have hrest : as.length = bs.length := Nat.succ.inj hlength
      have hle : as.length ≤ 3 := Nat.le_of_succ_le_succ hshort
      by_cases ha : IsPrintable a
      · by_cases hb : IsPrintable b
        · rw [spell_cons, spell_cons, byteText_of_printable ha, byteText_of_printable hb] at h
          obtain ⟨hhead, htail⟩ := List.cons.inj h
          rw [charOfByte_inj hhead, ih hrest (by omega) htail]
        · exact absurd h (not_spell_eq_spell ha hb hrest hle)
      · by_cases hb : IsPrintable b
        · exact absurd h.symm (not_spell_eq_spell hb ha hrest.symm (hrest ▸ hle))
        · have habyte := a.toNat_lt
          have hbbyte := b.toNat_lt
          rw [spell_cons, spell_cons, byteText_of_not_printable ha,
            byteText_of_not_printable hb] at h
          simp only [List.cons_append, List.nil_append, List.cons.injEq, true_and] at h
          obtain ⟨hhigh, hlow, htail⟩ := h
          have hdiv := digitChar_inj (by omega) (by omega) hhigh
          have hmod := digitChar_inj (by omega) (by omega) hlow
          have hab : a = b := UInt8.toNat_inj.1 (by omega)
          rw [hab, ih hrest (by omega) htail]

/-! ## Codes -/

theorem toList_text (f : FourCC) : f.text.toList = spell [f.b0, f.b1, f.b2, f.b3] := by
  rw [text, String.toList_ofList, spell]
  simp only [List.flatMap_cons, List.flatMap_nil, List.append_nil, List.append_assoc]

/-- A code can be told from its text. -/
theorem text_inj {f g : FourCC} : f.text = g.text ↔ f = g := by
  constructor
  · intro h
    have hspell : spell [f.b0, f.b1, f.b2, f.b3] = spell [g.b0, g.b1, g.b2, g.b3] := by
      rw [← toList_text, h, toList_text]
    have hbytes : [f.b0, f.b1, f.b2, f.b3] = [g.b0, g.b1, g.b2, g.b3] :=
      spell_inj rfl (Nat.le_refl 4) hspell
    simp only [List.cons.injEq, and_true] at hbytes
    obtain ⟨h0, h1, h2, h3⟩ := hbytes
    cases f
    cases g
    simp only at h0 h1 h2 h3
    rw [h0, h1, h2, h3]
  · intro h
    rw [h]

theorem quoted_inj {f g : FourCC} : f.quoted = g.quoted ↔ f = g := by
  rw [quoted, quoted, String.append_left_inj, String.append_right_inj, text_inj]

end ShaderIntake.FourCC
