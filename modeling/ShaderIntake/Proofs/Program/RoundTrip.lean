import ShaderIntake.Program.Build
import ShaderIntake.Proofs.Container.RoundTrip
import ShaderIntake.Proofs.Program.Extent

/-!
# Building a program and reading it back

What `Program.build` writes, `Program.parse` reads back: the version, the bitcode, and
nothing of what stands behind the part.

* `laidOut` is the layout without the checks of numbers.  `build_eq_ok_iff` says that
  building gives it exactly when the size of the bitcode fits a 32-bit word, and
  `build_eq_error_iff` that it fails otherwise.
* `programSize_laidOut`, `bitcodeStart_laidOut` and `bitcodeStop_laidOut` read the words
  of the header back.  The zeros that fill up the last word belong to the program and not
  to its bitcode.
* `parse_laidOut` puts them together, and `parse_undoes_build` adds the bytes behind: a
  built part is a whole program, so `SameProgram` applies.
-/

namespace ShaderIntake.Program

/-! ## The layout -/

/-- The number of words that the bitcode takes. -/
def bitcodeWords (bitcode : Bytes) : Nat :=
  (bitcode.size + 3) / 4

/-- The six words of the header, the third of which is a code. -/
def headPieces (version : UInt32) (words bitcodeSize : Nat) : List Bytes :=
  [Bytes.ofWord version, Bytes.ofWord (UInt32.ofNat (6 + words)), FourCC.dxil.toBytes,
    Bytes.ofWord (0x100 + version % 0x10), Bytes.ofWord 16,
    Bytes.ofWord (UInt32.ofNat bitcodeSize)]

/-- The header of a part. -/
def headBytes (version : UInt32) (words bitcodeSize : Nat) : Bytes :=
  Bytes.concat (headPieces version words bitcodeSize)

/-- A whole part. -/
def laidOut (version : UInt32) (bitcode : Bytes) : Bytes :=
  headBytes version (bitcodeWords bitcode) bitcode.size
    ++ (bitcode ++ Bytes.zeros (bitcodeWords bitcode * 4 - bitcode.size))

@[simp] theorem size_headBytes (version : UInt32) (words bitcodeSize : Nat) :
    (headBytes version words bitcodeSize).size = 24 := by
  simp only [headBytes, headPieces, Bytes.concat_cons, Bytes.concat_nil, ByteArray.size_append,
    Bytes.size_ofWord, FourCC.size_toBytes, ByteArray.size_empty]

/-- The zeros fill up the last word. -/
theorem size_le_bitcodeWords (bitcode : Bytes) : bitcode.size ≤ bitcodeWords bitcode * 4 := by
  rw [bitcodeWords]
  omega

theorem size_laidOut (version : UInt32) (bitcode : Bytes) :
    (laidOut version bitcode).size = 24 + bitcodeWords bitcode * 4 := by
  have hle := size_le_bitcodeWords bitcode
  rw [laidOut, ByteArray.size_append, ByteArray.size_append, size_headBytes, Bytes.size_zeros]
  omega

/-- Building gives the layout, exactly when the size of the bitcode fits a word.  The size
of the program is stored in words, so it fits then too. -/
theorem build_eq_ok_iff {version : UInt32} {bitcode part : Bytes} :
    build version bitcode = .ok part ↔
      bitcode.size < UInt32.size ∧ part = laidOut version bitcode := by
  by_cases hfits : bitcode.size < UInt32.size
  · have hwords : (programHeaderSize + (bitcode.size + 3) / 4 * 4) / 4 =
        6 + bitcodeWords bitcode := by
      rw [programHeaderSize, bitcodeWords]
      omega
    have hsize : 6 + bitcodeWords bitcode < UInt32.size := by
      rw [bitcodeWords, UInt32.size] at *
      omega
    have hbuild : build version bitcode = .ok (laidOut version bitcode) := by
      rw [build, hwords, fitWord_of_lt hsize, ok_bind, fitWord_of_lt hfits, ok_bind]
      simp only [laidOut, headBytes, headPieces, Bytes.concat_cons, Bytes.concat_nil,
        ByteArray.append_empty, ByteArray.append_assoc]
      rfl
    rw [hbuild]
    constructor
    · intro h
      exact ⟨hfits, (Except.ok.inj h).symm⟩
    · intro h
      rw [h.2]
  · constructor
    · intro h
      rw [build] at h
      obtain ⟨_, _, h⟩ := bind_eq_ok.1 h
      obtain ⟨_, hbitcode, _⟩ := bind_eq_ok.1 h
      rw [fitWord_of_le (by omega)] at hbitcode
      cases hbitcode
    · intro h
      exact absurd h.1 hfits

theorem build_eq_error_iff (version : UInt32) (bitcode : Bytes) :
    (∃ m, build version bitcode = .error m) ↔ UInt32.size ≤ bitcode.size := by
  rw [exists_eq_error_iff]
  constructor
  · intro hnever
    apply Nat.le_of_not_lt
    intro hfits
    exact hnever _ (build_eq_ok_iff.2 ⟨hfits, rfl⟩)
  · intro hle part hbuild
    exact absurd (build_eq_ok_iff.1 hbuild).1 (Nat.not_lt.2 hle)

/-! ## The words of the header -/

section Head

variable {part back : Bytes} {version : UInt32} {words bitcodeSize : Nat}
  (hpart : part = headBytes version words bitcodeSize ++ back)

include hpart

theorem split_headBytes {piece : Bytes} {i : Nat}
    (hpiece : (headPieces version words bitcodeSize)[i]? = some piece) :
    part = Bytes.concat ((headPieces version words bitcodeSize).take i) ++ (piece
      ++ (Bytes.concat ((headPieces version words bitcodeSize).drop (i + 1)) ++ back)) := by
  rw [hpart, headBytes, Bytes.concat_split hpiece, ByteArray.append_assoc, ByteArray.append_assoc]

theorem version_headBytes : part.word 0 = version :=
  Bytes.word_of_eq (split_headBytes hpart (i := 0) rfl) rfl

theorem sizeInWords_headBytes : part.word 4 = UInt32.ofNat (6 + words) :=
  Bytes.word_of_eq (split_headBytes hpart (i := 1) rfl) rfl

theorem readAt_headBytes : FourCC.readAt part 8 = .dxil :=
  FourCC.readAt_of_eq (split_headBytes hpart (i := 2) rfl) rfl

theorem dxilVersion_headBytes : part.word 12 = 0x100 + version % 0x10 :=
  Bytes.word_of_eq (split_headBytes hpart (i := 3) rfl) rfl

theorem bitcodeOffset_headBytes : part.word 16 = 16 :=
  Bytes.word_of_eq (split_headBytes hpart (i := 4) rfl) rfl

theorem bitcodeSize_headBytes : part.word 20 = UInt32.ofNat bitcodeSize :=
  Bytes.word_of_eq (split_headBytes hpart (i := 5) rfl) rfl

end Head

/-! ## The whole part -/

section LaidOut

variable (version : UInt32) {bitcode : Bytes} (hfits : bitcode.size < UInt32.size)

theorem version_laidOut (bitcode : Bytes) : (laidOut version bitcode).word 0 = version :=
  version_headBytes rfl

theorem version_declared_laidOut (bitcode : Bytes) :
    (declared (laidOut version bitcode)).version = .ofWord version := by
  rw [declared, version_laidOut]

/-- The DXIL version has major number 1 and the minor number of the model. -/
theorem toNat_dxilVersion_laidOut (bitcode : Bytes) :
    (declared (laidOut version bitcode)).dxilVersion.toNat = 0x100 + version.toNat % 0x10 := by
  have hword : (laidOut version bitcode).word 12 = 0x100 + version % 0x10 :=
    dxilVersion_headBytes rfl
  rw [declared, hword]
  simp only [UInt32.toNat_add, UInt32.toNat_mod, UInt32.reduceToNat]
  omega

theorem dxilMajor_laidOut (bitcode : Bytes) :
    (declared (laidOut version bitcode)).dxilMajor = 1 := by
  rw [dxilMajor, toNat_dxilVersion_laidOut]
  omega

theorem dxilMinor_laidOut (bitcode : Bytes) :
    (declared (laidOut version bitcode)).dxilMinor = version.toNat % 0x10 := by
  rw [dxilMinor, toNat_dxilVersion_laidOut]
  omega

theorem bitcodeStart_laidOut (bitcode : Bytes) : (laidOut version bitcode).bitcodeStart = 24 := by
  have hoffset : (laidOut version bitcode).word 16 = 16 := bitcodeOffset_headBytes rfl
  rw [Bytes.bitcodeStart, hoffset]
  rfl

include hfits

theorem programSize_laidOut :
    (laidOut version bitcode).programSize = 24 + bitcodeWords bitcode * 4 := by
  have hwords : 6 + bitcodeWords bitcode < UInt32.size := by
    rw [bitcodeWords, UInt32.size] at *
    omega
  have hword : (laidOut version bitcode).word 4 = UInt32.ofNat (6 + bitcodeWords bitcode) :=
    sizeInWords_headBytes rfl
  rw [Bytes.programSize, hword, UInt32.toNat_ofNat_of_lt' hwords]
  omega

theorem bitcodeStop_laidOut : (laidOut version bitcode).bitcodeStop = 24 + bitcode.size := by
  have hword : (laidOut version bitcode).word 20 = UInt32.ofNat bitcode.size :=
    bitcodeSize_headBytes rfl
  rw [Bytes.bitcodeStop, bitcodeStart_laidOut, hword, UInt32.toNat_ofNat_of_lt' hfits]

theorem wellFormed_laidOut : WellFormed (laidOut version bitcode) := by
  have hle := size_le_bitcodeWords bitcode
  have hsize := size_laidOut version bitcode
  have hprogram := programSize_laidOut version hfits
  have hstart := bitcodeStart_laidOut version bitcode
  have hstop := bitcodeStop_laidOut version hfits
  exact ⟨by omega, readAt_headBytes rfl, by omega, by omega, by omega, by omega⟩

theorem bitcode_laidOut : (declared (laidOut version bitcode)).bitcode = bitcode := by
  rw [declared, bitcodeStart_laidOut, bitcodeStop_laidOut version hfits]
  exact Bytes.extract_of_eq rfl (by rw [size_headBytes]) (by rw [size_headBytes])

/-- A part is read back with its version and its bitcode, without the zeros behind it. -/
theorem parse_laidOut :
    ∃ p, parse (laidOut version bitcode) = .ok p ∧ p.version = .ofWord version ∧
      p.bitcode = bitcode := by
  exact ⟨declared (laidOut version bitcode),
    (parse_eq_ok_iff _).2 ⟨wellFormed_laidOut version hfits, rfl⟩,
    version_declared_laidOut version bitcode, bitcode_laidOut version hfits⟩

end LaidOut

/-- Building fails exactly if the size of the bitcode does not fit a word.  A part that is
built is as long as its header and the whole words of its bitcode, and it is read back with
whatever stands behind it: the version, its own length, the DXIL version, and the bitcode
without the zeros that fill it up. -/
theorem parse_undoes_build (version : UInt32) (bitcode : Bytes) :
    ((∃ m, build version bitcode = .error m) ↔ UInt32.size ≤ bitcode.size) ∧
      ∀ part, build version bitcode = .ok part →
        part.size = 24 + (bitcode.size + 3) / 4 * 4 ∧
        ∀ suffix : Bytes, ∃ p, parse (part ++ suffix) = .ok p ∧
          p.version = .ofWord version ∧ 4 * p.sizeInWords.toNat = part.size ∧
            p.dxilMajor = 1 ∧ p.dxilMinor = version.toNat % 16 ∧ p.bitcode = bitcode := by
  refine ⟨build_eq_error_iff version bitcode, ?_⟩
  intro part hbuild
  obtain ⟨hfits, rfl⟩ := build_eq_ok_iff.1 hbuild
  refine ⟨size_laidOut version bitcode, ?_⟩
  intro suffix
  have hpart := wellFormed_laidOut version hfits
  have hprogram : 4 * (declared (laidOut version bitcode)).sizeInWords.toNat =
      (laidOut version bitcode).size := by
    rw [size_laidOut, ← programSize_laidOut version hfits]
    rfl
  refine ⟨declared (laidOut version bitcode), ?_, version_declared_laidOut version bitcode,
    hprogram, dxilMajor_laidOut version bitcode, dxilMinor_laidOut version bitcode,
    bitcode_laidOut version hfits⟩
  rw [parse_append hpart, parse_eq_ok_iff]
  exact ⟨hpart, rfl⟩

end ShaderIntake.Program
