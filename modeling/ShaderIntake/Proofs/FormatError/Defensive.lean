import ShaderIntake.Proofs.Container.FirstFault
import ShaderIntake.Proofs.Program.FirstFault

/-!
# Errors that no bytes lead to

`FormatError.isDefensive` marks the errors that guard reads and sums which earlier
checks keep in range.  `Container.isGenuine_of_parse` and `Program.isGenuine_of_parse`
say that neither reader gives such an error, nor one that reads like it: both go through
the faults that a reader reports, one case for each.

An error is read by its group and its words (`IsGenuine`).  Words hold numbers and codes
from the bytes, so two errors could read alike.  `looksDefensive` tells the defensive
errors of a group from the others by the first or the last character of their words, and
`looksDefensive_context` checks this for every error.
-/

namespace ShaderIntake

namespace FormatError

/-- No defensive error has the group and the words of `e`. -/
def IsGenuine (e : FormatError) : Prop :=
  ∀ d : FormatError, d.isDefensive = true → ¬(e.kind = d.kind ∧ e.context = d.context)

/-! ## First and last characters -/

/-- The text starts with one of `cs`. -/
def opensWith (cs : List Char) (s : String) : Bool :=
  s.toList.head?.any cs.contains

/-- The text ends in one of `cs`. -/
def endsIn (cs : List Char) (s : String) : Bool :=
  s.toList.getLast?.any cs.contains

section Ends

variable {cs : List Char}

/-- The text is long enough to say whether it starts with one of `cs`. -/
structure Opens (cs : List Char) (s : String) (answer : Bool) : Prop where
  nonempty : s ≠ ""
  opensWith_eq : opensWith cs s = answer

/-- What follows does not count. -/
theorem Opens.append {s : String} {answer : Bool} (h : Opens cs s answer) (t : String) :
    Opens cs (s ++ t) answer := by
  have hnonempty : s.toList ≠ [] := mt String.toList_eq_nil_iff.1 h.nonempty
  constructor
  · intro hempty
    exact h.nonempty (String.append_eq_empty_iff.1 hempty).1
  · rw [opensWith, String.toList_append, List.head?_append, List.head?_eq_some_head hnonempty,
      Option.some_or, ← List.head?_eq_some_head hnonempty]
    exact h.opensWith_eq

theorem endsIn_append (s : String) {t : String} (h : t ≠ "") :
    endsIn cs (s ++ t) = endsIn cs t := by
  have hnonempty : t.toList ≠ [] := mt String.toList_eq_nil_iff.1 h
  rw [endsIn, String.toList_append, List.getLast?_append,
    List.getLast?_eq_some_getLast hnonempty, Option.some_or,
    ← List.getLast?_eq_some_getLast hnonempty, endsIn]

theorem toList_toString (n : Nat) : (toString n).toList = Nat.toDigits 10 n :=
  Nat.toList_repr

theorem toString_ne_empty (n : Nat) : toString n ≠ "" := by
  intro h
  have hdigits := toList_toString n
  rw [h] at hdigits
  exact Nat.toDigits_ne_nil hdigits.symm

/-- A number ends in a digit. -/
theorem endsIn_toString (n : Nat) (h : cs.any Char.isDigit = false) :
    endsIn cs (toString n) = false := by
  have hlast := List.getLast_mem (Nat.toDigits_ne_nil (n := n) (b := 10))
  have hdigit := Nat.isDigit_of_mem_toDigits (by omega) (by omega) hlast
  rw [endsIn, toList_toString, List.getLast?_eq_some_getLast Nat.toDigits_ne_nil, Option.any_some,
    List.contains_eq_mem, decide_eq_false_iff_not]
  intro hmem
  rw [List.any_eq_true.2 ⟨_, hmem, hdigit⟩] at h
  cases h

end Ends

/-! ## How defensive errors read -/

/-- What the first or the last character of the words says, in each group. -/
def looksDefensive (k : Kind) (words : String) : Bool :=
  match k with
  | .malformedHeader => opensWith ['f'] words
  | .malformedOffsets => endsIn ['r', 'e'] words
  | .outOfBounds => opensWith ['o', 'n', 'r'] words
  | .invalidChunk => endsIn ['c', 's'] words

/-- The group and the words of an error tell whether it is defensive. -/
theorem looksDefensive_context (e : FormatError) :
    looksDefensive e.kind e.context = e.isDefensive := by
  cases e with
  -- Words that end in a number, and words that end in fixed text.
  | tooManyChunks | tablePastEnd | programTruncated =>
    exact (endsIn_append _ (toString_ne_empty _)).trans (endsIn_toString _ rfl)
  | badProgramMagic | offsetIntoHead | chunkOffsetOverflow | chunkSizeOverflow
  | programSizeOverflow | programSizeTooSmall | bitcodeOverHeader =>
    exact (endsIn_append _ (by decide)).trans rfl
  | programMagicUnreadable | bitcodeOffsetOverflow | bitcodeSizeOverflow => rfl
  -- The first character tells in the two groups that are left.
  | _ =>
    apply Opens.opensWith_eq
    repeat apply Opens.append
    exact ⟨by decide, rfl⟩

theorem isGenuine_of_not_isDefensive {e : FormatError} (h : e.isDefensive = false) :
    e.IsGenuine := by
  intro d hd hsame
  rw [← looksDefensive_context, hsame.1, hsame.2, looksDefensive_context, hd] at h
  cases h

end FormatError

/-! ## The readers give no defensive error -/

namespace Container

open FormatError (looksDefensive looksDefensive_context)

/-- The offset of a chunk is a word, and so is its size: neither sum leaves 64 bits. -/
theorem not_isDefensive_of_locate {bytes : Bytes} {index : Nat} {offset : UInt32} {e : FormatError}
    (h : ChunkExtent.locate bytes index offset.toNat = .error e) : e.isDefensive = false := by
  rw [ChunkExtent.locate_eq bytes index offset.toNat offset.toNat_lt] at h
  simp only [require_bind_eq_error, pure, Except.pure, reduceCtorEq, and_false, or_false] at h
  obtain ⟨hheader, rfl⟩ | ⟨hheader, hpayload, rfl⟩ := h
  · rfl
  · rfl

/-- No fault of a container reads like a defensive error. -/
theorem FirstFault.not_looksDefensive {b : Bytes} {kind : FormatError.Kind} {text : String}
    (h : FirstFault b kind text) : looksDefensive kind text = false := by
  cases h with
  | headerTruncated => exact looksDefensive_context (.headerTruncated b.size)
  | badMagic => exact looksDefensive_context (.badMagic _)
  | tooManyChunks => exact looksDefensive_context (.tooManyChunks (b.word 28))
  | totalSizeTooSmall => exact looksDefensive_context (.totalSizeTooSmall (b.word 24))
  | totalSizePastEnd => exact looksDefensive_context (.totalSizePastEnd (b.word 24) b.size)
  | tablePastEnd => exact looksDefensive_context (.tablePastEnd b.tableEnd b.totalSize)
  | entry _ _ _ hfault =>
    cases hfault with
    | intoHead _ hregion =>
      rw [hregion]
      exact looksDefensive_context (.offsetIntoHead _ _ _)
    | headerOutside => exact looksDefensive_context (.chunkHeaderOutside _ _ _ _)
    | payloadOutside => exact looksDefensive_context (.chunkDataOutside _ _ _ _ _)

theorem isGenuine_of_parse {b : Bytes} {e : FormatError} (h : parse b = .error e) :
    e.IsGenuine := by
  apply FormatError.isGenuine_of_not_isDefensive
  rw [← looksDefensive_context]
  exact (firstFault_of_parse h).not_looksDefensive

end Container

theorem Program.isGenuine_of_parse {part : Bytes} {e : FormatError}
    (h : Program.parse part = .error e) : e.IsGenuine := by
  apply FormatError.isGenuine_of_not_isDefensive
  cases Program.parse_eq_error_iff.1 h with
  | truncated | badMagic | sizeTooSmall | pastEnd | bitcodeOverHeader | bitcodePastEnd => rfl

end ShaderIntake
