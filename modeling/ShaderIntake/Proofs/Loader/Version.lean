import Mathlib.Data.List.Nodup
import Mathlib.Data.List.TFAE
import Mathlib.Data.Nat.Bitwise
import Mathlib.Tactic.TFAE
import ShaderIntake.Proofs.Loader.Message
import ShaderIntake.Proofs.Text

/-!
# The version in a refusal

A well-formed program is refused with a text that names its stage and its model.  The text
shows all of the program version that is read: two words have one text exactly if they agree
on every bit but those from 8 to 15, which stand for nothing (`refusal_identifies_version`).

* The numbers of stages: `Stage.ofKind_eq` is the table, `Stage.ofKind_inj` says that no two
  numbers share a stage, and `Stage.text_inj` that no two stages share a text.
* The fields of a word: `ofWord_eq_iff` in numbers and `ofWord_eq_iff_testBit` in bits.
* The text of the refusal: the first space behind the opening ends the stage, and the point
  ends the major number.
-/

namespace ShaderIntake

open Text

/-! ## Stages -/

namespace Stage

/-- The stages that have a name, each in the place of its number. -/
def namedStages : List Stage :=
  [pixel, vertex, geometry, hull, domain, compute, library, rayGeneration, intersection, anyHit,
    closestHit, miss, callable, mesh, amplification, node]

/-- The stage in the place of its number, or a number without a name. -/
theorem ofKind_eq (kind : UInt16) :
    ofKind kind = namedStages[kind.toNat]?.getD (unknown kind) := by
  rw [ofKind]
  split
  case h_17 =>
    have hle : namedStages.length ≤ kind.toNat := by
      change 16 ≤ kind.toNat
      grind
    rw [List.getElem?_eq_none hle, Option.getD_none]
  all_goals
    rename_i hkind
    rw [hkind]
    rfl

theorem mem_namedStages_or_unknown (stage : Stage) :
    stage ∈ namedStages ∨ ∃ kind, stage = unknown kind := by
  cases stage with
  | unknown kind => exact .inr ⟨kind, rfl⟩
  | _ => exact .inl (by decide)

theorem nodup_text_namedStages : (namedStages.map text).Nodup := by decide

theorem text_unknown (kind : UInt16) : (unknown kind).text = "unknown(" ++ toString kind ++ ")" :=
  rfl

/-- Names begin with a capital letter. -/
theorem text_ne_unknown {stage : Stage} (h : stage ∈ namedStages) (kind : UInt16) :
    stage.text ≠ (unknown kind).text := by
  intro heq
  have hhead : ∀ stage ∈ namedStages, stage.text.toList.head? ≠ some 'u' := by decide
  apply hhead stage h
  rw [heq, text_unknown]
  simp

theorem unknown_text_inj {k l : UInt16} (h : (unknown k).text = (unknown l).text) : k = l := by
  rw [text_unknown, text_unknown, String.append_left_inj, String.append_right_inj] at h
  exact UInt16.toNat_inj.1 (toList_number_inj (congrArg String.toList h))

theorem text_inj {s t : Stage} : s.text = t.text ↔ s = t := by
  constructor
  · intro h
    rcases s.mem_namedStages_or_unknown with hs | ⟨k, rfl⟩
    · rcases t.mem_namedStages_or_unknown with ht | ⟨l, rfl⟩
      · exact List.inj_on_of_nodup_map nodup_text_namedStages hs ht h
      · exact absurd h (text_ne_unknown hs l)
    · rcases t.mem_namedStages_or_unknown with ht | ⟨l, rfl⟩
      · exact absurd h.symm (text_ne_unknown ht k)
      · rw [unknown_text_inj h]
  · intro h
    rw [h]

/-- The number of a stage. -/
def kind : Stage → UInt16
  | unknown kind => kind
  | stage => UInt16.ofNat (namedStages.idxOf stage)

theorem kind_ofKind (k : UInt16) : (ofKind k).kind = k := by
  rw [ofKind]
  split
  case h_17 => rfl
  all_goals
    rename_i hkind
    exact UInt16.toNat_inj.1 hkind.symm

theorem ofKind_inj {k l : UInt16} : ofKind k = ofKind l ↔ k = l := by
  constructor
  · intro h
    rw [← kind_ofKind k, h, kind_ofKind]
  · intro h
    rw [h]

/-- A stage is one word. -/
theorem space_notMem_text (stage : Stage) : ' ' ∉ stage.text.toList := by
  cases stage with
  | unknown kind =>
    intro h
    rw [text_unknown, String.toList_append, String.toList_append, List.mem_append,
      List.mem_append] at h
    rcases h with (h | h) | h
    · revert h
      decide
    · exact absurd (isDigit_of_mem_number h) (by decide)
    · revert h
      decide
  | _ => decide

end Stage

/-! ## Models -/

theorem Model.text_inj {m n : Model} : m.text = n.text ↔ m = n := by
  obtain ⟨major, minor⟩ := m
  obtain ⟨major', minor'⟩ := n
  constructor
  · intro h
    rw [text, text, String.append_assoc, String.append_assoc] at h
    have hpoint (k : UInt8) : NoDigit ("." ++ toString k).toList := by
      rw [String.toList_append]
      exact noDigit_cons _ (by decide)
    obtain ⟨hmajor, hrest⟩ := number_append_inj (hpoint minor) (hpoint minor') h
    rw [String.append_right_inj] at hrest
    have hminor := toList_number_inj (congrArg String.toList hrest)
    exact (mk.injEq ..).mpr ⟨UInt8.toNat_inj.1 hmajor, UInt8.toNat_inj.1 hminor⟩
  · intro h
    rw [h]

/-! ## Words -/

namespace ProgramVersion

variable {v w : UInt32}

theorem ofWord_eq_iff : ofWord v = ofWord w ↔
    v.toNat / 0x10000 = w.toNat / 0x10000 ∧ v.toNat % 0x100 = w.toNat % 0x100 := by
  have hv := v.toNat_lt
  have hw := w.toNat_lt
  simp only [ofWord, mk.injEq, Model.mk.injEq, Stage.ofKind_inj, ← UInt16.toNat_inj,
    ← UInt8.toNat_inj, UInt32.toNat_toUInt16, UInt32.toNat_toUInt8, UInt32.toNat_div,
    UInt32.toNat_mod, UInt32.reduceToNat]
  omega

/-- The upper half of a word is its bits from 16 on. -/
theorem upper_eq_iff_testBit : v.toNat / 0x10000 = w.toNat / 0x10000 ↔
    ∀ i < 32, 16 ≤ i → v.toNat.testBit i = w.toNat.testBit i := by
  have hbit (n i : Nat) : (n / 0x10000).testBit i = n.testBit (i + 16) :=
    Nat.testBit_div_two_pow (n := 16) n i
  constructor
  · intro h i _ hi
    obtain ⟨j, rfl⟩ := Nat.exists_eq_add_of_le' hi
    rw [← hbit, h, hbit]
  · intro h
    apply Nat.eq_of_testBit_eq
    intro i
    rw [hbit, hbit]
    by_cases hi : i + 16 < 32
    · exact h (i + 16) hi (Nat.le_add_left 16 i)
    · have hlarge : 2 ^ 32 ≤ 2 ^ (i + 16) := Nat.pow_le_pow_right (by omega) (by omega)
      rw [Nat.testBit_lt_two_pow (v.toNat_lt.trans_le hlarge),
        Nat.testBit_lt_two_pow (w.toNat_lt.trans_le hlarge)]

/-- The lowest byte of a word is its bits below 8. -/
theorem lowest_eq_iff_testBit : v.toNat % 0x100 = w.toNat % 0x100 ↔
    ∀ i < 8, v.toNat.testBit i = w.toNat.testBit i := by
  have hbit (n i : Nat) : (n % 0x100).testBit i = (decide (i < 8) && n.testBit i) :=
    Nat.testBit_mod_two_pow n 8 i
  constructor
  · intro h i hi
    have hlow := congrArg (Nat.testBit · i) h
    simpa only [hbit, hi, decide_true, Bool.true_and] using hlow
  · intro h
    apply Nat.eq_of_testBit_eq
    intro i
    rw [hbit, hbit]
    by_cases hi : i < 8
    · rw [h i hi]
    · rw [decide_eq_false hi, Bool.false_and, Bool.false_and]

/-- Nothing reads the bits from 8 to 15. -/
theorem ofWord_eq_iff_testBit : ofWord v = ofWord w ↔
    ∀ i < 32, ¬(8 ≤ i ∧ i ≤ 15) → v.toNat.testBit i = w.toNat.testBit i := by
  rw [ofWord_eq_iff, upper_eq_iff_testBit, lowest_eq_iff_testBit]
  constructor
  · rintro ⟨hupper, hlowest⟩ i hi houtside
    by_cases hlow : i < 8
    · exact hlowest i hlow
    · exact hupper i hi (by omega)
  · intro h
    exact ⟨fun i hi hup => h i hi (by omega), fun i hi => h i (by omega) (by omega)⟩

/-- The word with the fields in their places. -/
def pack (kind : UInt16) (major minor : UInt8) : UInt32 :=
  kind.toUInt32 <<< 16 ||| major.toUInt32 <<< 4 ||| minor.toUInt32

/-- A shift that loses no bits. -/
theorem toNat_shiftLeft {x n : UInt32} (hn : n.toNat < 32) (h : x.toNat <<< n.toNat < UInt32.size) :
    (x <<< n).toNat = x.toNat <<< n.toNat := by
  rw [UInt32.toNat_shiftLeft, Nat.mod_eq_of_lt hn]
  exact Nat.mod_eq_of_lt h

section Pack

variable (kind : UInt16) {major minor : UInt8} (hmajor : major < 16) (hminor : minor < 16)

include hmajor hminor

theorem toNat_pack :
    (pack kind major minor).toNat = kind.toNat * 0x10000 + major.toNat * 0x10 + minor.toNat := by
  have hkind := kind.toNat_lt
  have hmajor' : major.toNat < 16 := hmajor
  have hminor' : minor.toNat < 16 := hminor
  have hkindShift : (kind.toUInt32 <<< 16).toNat = kind.toNat <<< 16 := by
    apply toNat_shiftLeft (by decide)
    rw [UInt16.toNat_toUInt32, Nat.shiftLeft_eq]
    exact Nat.mul_lt_mul_of_pos_right hkind (by decide)
  have hmajorShift : (major.toUInt32 <<< 4).toNat = major.toNat <<< 4 := by
    apply toNat_shiftLeft (by decide)
    rw [UInt8.toNat_toUInt32, Nat.shiftLeft_eq]
    exact (Nat.mul_lt_mul_of_pos_right hmajor' (by decide)).trans (by decide)
  -- Each shift leaves room for what stands below it, so that the union is a sum.
  have hlow : major.toNat <<< 4 ||| minor.toNat = major.toNat * 0x10 + minor.toNat := by
    rw [← Nat.shiftLeft_add_eq_or_of_lt hminor', Nat.shiftLeft_eq]
  have hhigh : kind.toNat <<< 16 ||| (major.toNat * 0x10 + minor.toNat) =
      kind.toNat * 0x10000 + (major.toNat * 0x10 + minor.toNat) := by
    rw [← Nat.shiftLeft_add_eq_or_of_lt (by omega), Nat.shiftLeft_eq]
  rw [pack, UInt32.toNat_or, UInt32.toNat_or, hkindShift, hmajorShift, UInt8.toNat_toUInt32,
    Nat.or_assoc, hlow, hhigh, Nat.add_assoc]

theorem ofWord_pack : ofWord (pack kind major minor) = ⟨.ofKind kind, ⟨major, minor⟩⟩ := by
  have hkind := kind.toNat_lt
  have hmajor' : major.toNat < 16 := hmajor
  have hminor' : minor.toNat < 16 := hminor
  have hpack := toNat_pack kind hmajor hminor
  simp only [ofWord, mk.injEq, Model.mk.injEq, Stage.ofKind_inj, ← UInt16.toNat_inj,
    ← UInt8.toNat_inj, UInt32.toNat_toUInt16, UInt32.toNat_toUInt8, UInt32.toNat_div,
    UInt32.toNat_mod, UInt32.reduceToNat, hpack]
  omega

end Pack

end ProgramVersion

/-! ## Refusals -/

theorem Refusal.unsupported_message_inj {version version' : ProgramVersion} :
    (unsupported version).message = (unsupported version').message ↔ version = version' := by
  constructor
  · intro h
    obtain ⟨stage, model⟩ := version
    obtain ⟨stage', model'⟩ := version'
    simp only [message_unsupported, String.append_left_inj] at h
    simp only [String.append_assoc, String.append_right_inj] at h
    rw [← String.toList_inj] at h
    simp only [String.toList_append] at h
    have hword (s : Stage) : ∀ c ∈ s.text.toList, c ≠ ' ' := by
      rintro c hc rfl
      exact s.space_notMem_text hc
    have hspace (t : List Char) : Json.NoHead (· ≠ ' ') (" shader model ".toList ++ t) :=
      Json.noHead_cons.2 (by decide)
    obtain ⟨hstage, hmodel⟩ := Json.append_unique (hword stage) (hword stage') (hspace _)
      (hspace _) h
    have hmodel := String.toList_inj.1 (List.append_cancel_left hmodel)
    rw [Stage.text_inj.1 (String.toList_inj.1 hstage), Model.text_inj.1 hmodel]
  · intro h
    rw [h]

/-- The text of the refusal of a well-formed program shows the program version and nothing
else: for two words it is the same exactly if the words are read alike, and they are exactly if
they agree on every bit but those from 8 to 15.  Every kind and every model is read from the
word that holds it, and no two kinds are the same stage or have the same text. -/
theorem refusal_identifies_version :
    (∀ v w : UInt32, List.TFAE [
      ProgramVersion.ofWord v = ProgramVersion.ofWord w,
      ∀ i < 32, ¬(8 ≤ i ∧ i ≤ 15) → v.toNat.testBit i = w.toNat.testBit i,
      (Refusal.unsupported (.ofWord v)).message = (Refusal.unsupported (.ofWord w)).message]) ∧
    (∀ (kind : UInt16) (major minor : UInt8), major < 16 → minor < 16 →
      ProgramVersion.ofWord (kind.toUInt32 <<< 16 ||| major.toUInt32 <<< 4 ||| minor.toUInt32) =
        ⟨Stage.namedStages[kind.toNat]?.getD (.unknown kind), ⟨major, minor⟩⟩) ∧
    ∀ k l : UInt16, k ≠ l →
      Stage.ofKind k ≠ Stage.ofKind l ∧ (Stage.ofKind k).text ≠ (Stage.ofKind l).text := by
  refine ⟨?_, ?_, ?_⟩
  · intro v w
    tfae_have 1 ↔ 2 := ProgramVersion.ofWord_eq_iff_testBit
    tfae_have 3 ↔ 1 := Refusal.unsupported_message_inj
    tfae_finish
  · intro kind major minor hmajor hminor
    rw [← Stage.ofKind_eq]
    exact ProgramVersion.ofWord_pack kind hmajor hminor
  · intro k l hne
    have hstage : Stage.ofKind k ≠ Stage.ofKind l := mt Stage.ofKind_inj.1 hne
    exact ⟨hstage, mt Stage.text_inj.1 hstage⟩

/-- Compute programs of model 6.0, with and without bits that nothing reads, and a kind that has
no name. -/
theorem refusal_identifies_version_unreadBits :
    ProgramVersion.ofWord 0x00050060 = ⟨.compute, ⟨6, 0⟩⟩ ∧
      (Refusal.unsupported (.ofWord 0x0005ff60)).message =
        (Refusal.unsupported (.ofWord 0x00050060)).message ∧
      (Stage.ofKind 16).text ≠ (Stage.ofKind 15).text := by
  obtain ⟨htfae, hpack, hkinds⟩ := refusal_identifies_version
  refine ⟨hpack 5 6 0 (by decide) (by decide), ?_, (hkinds 16 15 (by decide)).2⟩
  have hbits : ∀ i < 32, ¬(8 ≤ i ∧ i ≤ 15) →
      (0x0005ff60 : UInt32).toNat.testBit i = (0x00050060 : UInt32).toNat.testBit i := by decide
  exact ((htfae 0x0005ff60 0x00050060).out 1 2).1 hbits

end ShaderIntake
