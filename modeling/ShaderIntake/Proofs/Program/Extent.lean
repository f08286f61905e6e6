import ShaderIntake.Proofs.Program.FirstFault

/-!
# Where a program ends

The declared size is the extent of a program: its header and its bitcode lie before it, and
nothing behind it is looked at.  `SameProgram` relates a part to any other that starts with
the same program, and `SameProgram.parse_eq` says that the two are read alike, whether bytes
were cut off, changed or added behind the program (`parse_append`).

Everything before the declared size is needed.  A cut inside the header leaves too little for
a header (`firstFault_take_of_lt_header`).  A cut behind it leaves a sound header that declares
more than there is (`firstFault_take_of_lt`), although the bitcode may still be whole.
-/

namespace ShaderIntake.Program

/-- `part'` starts with all the bytes that `part` declares, whatever stands behind them. -/
structure SameProgram (part part' : Bytes) : Prop where
  programSize_le : part.programSize ≤ part'.size
  byteAt_eq : ∀ i, i < part.programSize → part'.byteAt i = part.byteAt i

variable {part part' : Bytes}

namespace SameProgram

section

variable (h : SameProgram part part') (hpart : WellFormed part)

include h hpart

/-- The header lies inside the program. -/
theorem byteAt_eq_of_lt_header (i : Nat) (hi : i < 24) : part'.byteAt i = part.byteAt i :=
  h.byteAt_eq i (Nat.lt_of_lt_of_le hi hpart.le_programSize)

theorem wellFormed : WellFormed part' := by
  have hheader := h.byteAt_eq_of_lt_header hpart
  have hprogram := Bytes.programSize_congr hheader
  have hstart := Bytes.bitcodeStart_congr hheader
  have hstop := Bytes.bitcodeStop_congr hheader
  refine ⟨Nat.le_trans hpart.le_programSize h.programSize_le, ?_, ?_, ?_, ?_, ?_⟩
  · rw [Bytes.headerCode_congr hheader]
    exact hpart.magic
  · rw [hprogram]
    exact hpart.le_programSize
  · rw [hprogram]
    exact h.programSize_le
  · rw [hstart]
    exact hpart.le_bitcodeStart
  · rw [hstop, hprogram]
    exact hpart.bitcodeStop_le

/-- The bitcode lies inside the program too. -/
theorem extract_bitcode_eq :
    part'.extract part.bitcodeStart part.bitcodeStop =
      part.extract part.bitcodeStart part.bitcodeStop := by
  have hstop := hpart.bitcodeStop_le
  have hsize : part.bitcodeStop ≤ part.size := Nat.le_trans hstop hpart.programSize_le
  have hsize' : part.bitcodeStop ≤ part'.size := Nat.le_trans hstop h.programSize_le
  apply Bytes.extract_congr
  · rw [Nat.min_eq_left hsize, Nat.min_eq_left hsize']
  · intro i _ hi
    exact h.byteAt_eq i (Nat.lt_of_lt_of_le hi hstop)

theorem declared_eq : declared part' = declared part := by
  have hheader := h.byteAt_eq_of_lt_header hpart
  rw [declared, Bytes.headerWord_congr hheader (by omega),
    Bytes.headerWord_congr hheader (by omega), Bytes.headerWord_congr hheader (by omega),
    Bytes.bitcodeStart_congr hheader, Bytes.bitcodeStop_congr hheader,
    h.extract_bitcode_eq hpart, declared]

/-- A part that starts with the same program is read as the same program. -/
theorem parse_eq : parse part' = parse part := by
  rw [(parse_eq_ok_iff part').2 ⟨h.wellFormed hpart, rfl⟩,
    (parse_eq_ok_iff part).2 ⟨hpart, rfl⟩, h.declared_eq hpart]

end

theorem append (hpart : WellFormed part) (suffix : Bytes) :
    SameProgram part (part ++ suffix) where
  programSize_le := by
    have hprogram := hpart.programSize_le
    rw [ByteArray.size_append]
    omega
  byteAt_eq := by
    intro i hi
    exact Bytes.byteAt_append_left (Nat.lt_of_lt_of_le hi hpart.programSize_le)

end SameProgram

/-- Bytes behind a program change nothing. -/
theorem parse_append (hpart : WellFormed part) (suffix : Bytes) :
    parse (part ++ suffix) = parse part :=
  (SameProgram.append hpart suffix).parse_eq hpart

/-! ## Bytes that are cut off -/

section Take

variable {n : Nat}

/-- A cut behind the declared size leaves the whole program. -/
theorem SameProgram.take (hpart : WellFormed part) (hn : part.programSize ≤ n) :
    SameProgram part (part.take n) where
  programSize_le := by
    have hprogram := hpart.programSize_le
    rw [Bytes.take, ByteArray.size_extract]
    omega
  byteAt_eq := by
    intro i hi
    exact Bytes.byteAt_take (Nat.lt_of_lt_of_le hi hn)

/-- A cut inside the header leaves too little for a header. -/
theorem firstFault_take_of_lt_header (hn : n < 24) :
    FirstFault (part.take n) (.programTruncated (part.take n).size) := by
  apply FirstFault.truncated
  rw [Bytes.take, ByteArray.size_extract]
  omega

/-- A cut behind the header and before the declared size leaves less than is declared. -/
theorem firstFault_take_of_lt (hpart : WellFormed part) (hheader : 24 ≤ n)
    (hn : n < part.programSize) :
    FirstFault (part.take n)
      (.programPastEnd (part.take n).programSize (part.take n).size) := by
  have hsize : (part.take n).size = n :=
    Bytes.size_extract_zero (Nat.le_trans (Nat.le_of_lt hn) hpart.programSize_le)
  have hsame : ∀ i, i < 24 → (part.take n).byteAt i = part.byteAt i := by
    intro i hi
    exact Bytes.byteAt_take (Nat.lt_of_lt_of_le hi hheader)
  have hprogram := Bytes.programSize_congr hsame
  apply FirstFault.pastEnd
  · rw [hsize]
    exact hheader
  · rw [Bytes.headerCode_congr hsame]
    exact hpart.magic
  · rw [hprogram]
    exact hpart.le_programSize
  · rw [hsize, hprogram]
    exact hn

/-- Cutting a program before its declared size leaves none. -/
theorem exists_firstFault_take (hpart : WellFormed part) (hn : n < part.programSize) :
    ∃ e, FirstFault (part.take n) e := by
  by_cases hheader : 24 ≤ n
  · exact ⟨_, firstFault_take_of_lt hpart hheader hn⟩
  · exact ⟨_, firstFault_take_of_lt_header (Nat.lt_of_not_le hheader)⟩

end Take

/-- The declared size is the extent of a program.  Of the prefixes of a part exactly those of
at least that size hold the program, and it is the same one.  A shorter prefix is refused:
without a whole header it is no program, and with one the program is out of bounds.  Whatever
stands behind the declared size can be changed, added to or cut off. -/
theorem programSize_delimits_program {part : Bytes} {p : Program} (h : parse part = .ok p) :
    (∀ n, ((∃ p', parse (part.take n) = .ok p') ↔ 4 * p.sizeInWords.toNat ≤ n) ∧
        (4 * p.sizeInWords.toNat ≤ n → parse (part.take n) = .ok p) ∧
        (n < 24 → ∃ e, parse (part.take n) = .error e ∧ e.kind = .invalidChunk) ∧
        (24 ≤ n → n < 4 * p.sizeInWords.toNat →
          ∃ e, parse (part.take n) = .error e ∧ e.kind = .outOfBounds)) ∧
      ∀ part' : Bytes, 4 * p.sizeInWords.toNat ≤ part'.size →
        (∀ i, i < 4 * p.sizeInWords.toNat → part'.byteAt i = part.byteAt i) →
        parse part' = .ok p := by
  obtain ⟨hpart, rfl⟩ := (parse_eq_ok_iff part).1 h
  have hsize : 4 * (declared part).sizeInWords.toNat = part.programSize := rfl
  rw [hsize]
  have hwhole : ∀ {part' : Bytes}, SameProgram part part' → parse part' = .ok (declared part) := by
    intro part' hsame
    rw [hsame.parse_eq hpart, h]
  constructor
  · intro n
    refine ⟨⟨?_, ?_⟩, ?_, ?_, ?_⟩
    · rintro ⟨p', hp'⟩
      apply Nat.le_of_not_lt
      intro hn
      obtain ⟨e, he⟩ := exists_firstFault_take hpart hn
      rw [parse_eq_error_iff.2 he] at hp'
      cases hp'
    · intro hn
      exact ⟨_, hwhole (.take hpart hn)⟩
    · intro hn
      exact hwhole (.take hpart hn)
    · intro hn
      exact ⟨_, parse_eq_error_iff.2 (firstFault_take_of_lt_header hn), rfl⟩
    · intro hheader hn
      exact ⟨_, parse_eq_error_iff.2 (firstFault_take_of_lt hpart hheader hn), rfl⟩
  · intro part' hle hbyte
    exact hwhole ⟨hle, hbyte⟩

/-- A part with two bytes behind its program of seven words.  Of its four bytes of bitcode the
last two are there to fill up the word. -/
def paddedPart : Bytes :=
  ⟨#[0x60, 0, 5, 0, 7, 0, 0, 0, 0x44, 0x58, 0x49, 0x4c, 0, 1, 0, 0, 16, 0, 0, 0, 2, 0, 0, 0,
    0x42, 0x43, 0, 0, 0xaa, 0xbb]⟩

theorem paddedPart_wellFormed : WellFormed paddedPart :=
  ⟨by decide, by decide, by decide, by decide, by decide, by decide⟩

/-- The bitcode would still be whole after 26 bytes, but the program is not. -/
theorem programSize_delimits_program_padded :
    parse paddedPart = .ok (declared paddedPart) ∧
      (declared paddedPart).sizeInWords = 7 ∧
      parse (paddedPart.take 28) = .ok (declared paddedPart) ∧
      (∃ e, parse (paddedPart.take 26) = .error e ∧ e.kind = .outOfBounds) ∧
      parse (paddedPart.overwrite 28 ⟨#[1, 2]⟩) = .ok (declared paddedPart) := by
  have hparse : parse paddedPart = .ok (declared paddedPart) :=
    (parse_eq_ok_iff paddedPart).2 ⟨paddedPart_wellFormed, rfl⟩
  have hwords : (declared paddedPart).sizeInWords = 7 := by decide
  have hdelimits := programSize_delimits_program hparse
  rw [hwords] at hdelimits
  refine ⟨hparse, hwords, (hdelimits.1 28).2.1 (by decide),
    (hdelimits.1 26).2.2.2 (by decide) (by decide), hdelimits.2 _ (by decide) ?_⟩
  intro i hi
  exact Bytes.byteAt_overwrite_of_lt (by decide) hi

end ShaderIntake.Program
