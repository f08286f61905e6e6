import ShaderIntake.FormatError
import ShaderIntake.Proofs.Bytes

/-!
# Steps that can fault

The readers take bytes and ranges out of byte strings, copy ranges and add up sizes.
Where such a step goes wrong, the program ends: an index or a range past the end, a
copy of the wrong size, a sum or a product that is no size.  The readers themselves are
written with operations that give some value there.  In this module each such step is
an operation of its own that can *fault*, so that a reader can be written once more
with them, and its faults be seen.

A reader that can fault ends in one of three ways (`Stop`): with a result, with a
refusal, which is an answer like any other, or with a fault.  `settle` keeps the first
two apart from the third, and `refuse` is a reader that does not fault.

The lemmas `byte_eq_ok`, `range_eq_ok`, `plus_eq_ok` and so on say when a step does not
fault, and which value it has then.
-/

namespace ShaderIntake

/-- A step that ends the program. -/
inductive Fault where
  /-- An index at or past the end. -/
  | index (position size : Nat)
  /-- A range that runs backwards or past the end. -/
  | range (start stop size : Nat)
  /-- A copy between ranges of different sizes. -/
  | copy (source target : Nat)
  /-- A sum or product that is no size. -/
  | overflow
deriving DecidableEq

/-- How a reader ends without a result. -/
inductive Stop where
  | refused (e : FormatError)
  | faulted (f : Fault)
deriving DecidableEq

namespace Faulting

variable {α β : Type}

/-! ## Refusals and faults -/

/-- A reader that refuses and does not fault. -/
def refuse (x : Except FormatError α) : Except Stop α :=
  x.mapError .refused

/-- The answer of a reader, if it does not fault. -/
def settle : Except Stop α → Except Fault (Except FormatError α)
  | .ok a => .ok (.ok a)
  | .error (.refused e) => .ok (.error e)
  | .error (.faulted f) => .error f

/-- A step that faults inside a reader. -/
instance : MonadLift (Except Fault) (Except Stop) :=
  ⟨Except.mapError .faulted⟩

@[simp] theorem liftM_ok (a : α) :
    (liftM (Except.ok a : Except Fault α) : Except Stop α) = .ok a := rfl

@[simp] theorem settle_refuse (x : Except FormatError α) : settle (refuse x) = .ok x := by
  cases x <;> rfl

@[simp] theorem refuse_ok (a : α) : refuse (.ok a) = .ok a := rfl

theorem refuse_bind (x : Except FormatError α) (k : α → Except FormatError β) :
    refuse (x >>= k) = (refuse x >>= fun a => refuse (k a)) := by
  cases x <;> rfl

@[simp] theorem refuse_require (p : Prop) [Decidable p] (e : FormatError) :
    refuse (require p e) = require p (.refused e) := by
  by_cases hp : p
  · rw [require, require, if_pos hp, if_pos hp, refuse_ok]
  · rw [require, require, if_neg hp, if_neg hp]
    rfl

@[simp] theorem refuse_demand (o : Option α) (e : FormatError) :
    refuse (demand o e) = demand o (.refused e) := by
  cases o <;> rfl

/-! ## Bytes and ranges -/

/-- The byte at position `i`. -/
def byte (b : Bytes) (i : Nat) : Except Fault UInt8 :=
  if h : i < b.size then .ok b[i] else .error (.index i b.size)

/-- The bytes from `start` up to but not including `stop`. -/
def range (b : Bytes) (start stop : Nat) : Except Fault Bytes :=
  demand (b.slice? start stop) (.range start stop b.size)

/-- A copy of `b` in a field of `n` bytes. -/
def copied (b : Bytes) (n : Nat) : Except Fault Bytes := do
  require (b.size = n) (.copy b.size n)
  return b

/-- The little-endian word of the four bytes from position `p` on. -/
def word (b : Bytes) (p : Nat) : Except Fault UInt32 := do
  let b0 ← byte b p
  let b1 ← byte b (p + 1)
  let b2 ← byte b (p + 2)
  let b3 ← byte b (p + 3)
  return b0.toUInt32 + b1.toUInt32 * 0x100 + b2.toUInt32 * 0x10000 + b3.toUInt32 * 0x1000000

/-- The code of the four bytes from position `p` on. -/
def code (b : Bytes) (p : Nat) : Except Fault FourCC := do
  let b0 ← byte b p
  let b1 ← byte b (p + 1)
  let b2 ← byte b (p + 2)
  let b3 ← byte b (p + 3)
  return ⟨b0, b1, b2, b3⟩

variable {b : Bytes}

theorem byte_eq_ok {i : Nat} (h : i < b.size) : byte b i = .ok (b.byteAt i) := by
  rw [byte, dif_pos h, Bytes.byteAt_of_lt h]

theorem range_eq_ok {start stop : Nat} (h : b.InRange start stop) :
    range b start stop = .ok (b.extract start stop) := by
  rw [range, Bytes.slice?_eq_some h, demand_some]

theorem copied_eq_ok {n : Nat} (h : b.size = n) : copied b n = .ok b := by
  rw [copied, require_bind_of_pos h]
  rfl

theorem word_eq_ok {p : Nat} (h : p + 4 ≤ b.size) : word b p = .ok (b.word p) := by
  rw [word, byte_eq_ok (by omega), byte_eq_ok (by omega), byte_eq_ok (by omega),
    byte_eq_ok (by omega)]
  rfl

theorem code_eq_ok {p : Nat} (h : p + 4 ≤ b.size) : code b p = .ok (FourCC.readAt b p) := by
  rw [code, byte_eq_ok (by omega), byte_eq_ok (by omega), byte_eq_ok (by omega),
    byte_eq_ok (by omega)]
  rfl

/-! ## Sizes -/

/-- The sum of two sizes. -/
def plus (m n : Nat) : Except Fault Nat :=
  demand (Size.add? m n) .overflow

/-- The product of two sizes. -/
def times (m n : Nat) : Except Fault Nat :=
  demand (Size.mul? m n) .overflow

theorem plus_eq_ok {m n : Nat} (h : m + n < Size.limit) : plus m n = .ok (m + n) := by
  rw [plus, Size.add?_eq_some h, demand_some]

theorem times_eq_ok {m n : Nat} (h : m * n < Size.limit) : times m n = .ok (m * n) := by
  rw [times, Size.mul?_eq_some h, demand_some]

/-! ## Words that are asked for -/

/-- The word at `p`, with the refusal of a read that leaves the bytes. -/
def readWord (b : Bytes) (p : Nat) : Except Stop UInt32 := do
  let stop ← demand (Size.add? p 4) (.refused .wordPositionOverflow)
  let four ← demand (b.slice? p stop) (.refused (.wordOutside p stop b.size))
  word four 0

/-- A range that is asked for is one that is checked first. -/
theorem demand_slice?_bind {ε : Type} {start stop : Nat} {e : ε} {k : Bytes → Except ε β} :
    (demand (b.slice? start stop) e >>= k) =
      (require (b.InRange start stop) e >>= fun _ => k (b.extract start stop)) := by
  by_cases h : b.InRange start stop
  · rw [require_bind_of_pos h, Bytes.slice?_eq_some h, demand_some, ok_bind]
  · rw [require_bind_of_neg h, Bytes.slice?, if_neg h, demand_none, error_bind]

/-- Behind its two checks, reading a word takes four bytes out of four. -/
theorem readWord_eq_refuse (b : Bytes) (p : Nat) : readWord b p = refuse (b.readWord p) := by
  rw [readWord, Bytes.readWord, refuse_bind, refuse_demand]
  cases hstop : Size.add? p 4 with
  | none => rfl
  | some stop =>
    obtain rfl : p + 4 = stop := Size.eq_of_add?_eq_some hstop
    rw [demand_some, ok_bind, ok_bind, demand_slice?_bind, refuse_bind, refuse_require]
    apply require_bind_congr
    intro hrange
    have hsize : ByteArray.size (b.extract p (p + 4)) = 4 := by
      rw [Bytes.size_extract_of_le hrange.2]
      omega
    rw [word_eq_ok (by omega), Bytes.word_extract (by omega), Nat.add_zero]
    rfl

end Faulting

end ShaderIntake
