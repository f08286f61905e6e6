/-!
# Byte strings

`Bytes` is the contents of a file or a part of one.  The module reads single
bytes and little-endian words (`byteAt`, `word`), takes ranges that lie inside
(`InRange`, `slice?`), writes words (`ofWord`), and writes over a range
(`overwrite`).

Reading at a position past the end gives zero.  Code that must not read there
asks first, through `InRange` or `slice?`.
-/

namespace ShaderIntake

/-- A byte string. -/
abbrev Bytes := ByteArray

namespace Bytes

/-! ## Reading -/

/-- The byte at position `i`, zero past the end. -/
def byteAt (b : Bytes) (i : Nat) : UInt8 :=
  if h : i < b.size then b[i] else 0

/-- The little-endian 32-bit word whose lowest byte is at position `p`. -/
def word (b : Bytes) (p : Nat) : UInt32 :=
  (b.byteAt p).toUInt32 + (b.byteAt (p + 1)).toUInt32 * 0x100
    + (b.byteAt (p + 2)).toUInt32 * 0x10000 + (b.byteAt (p + 3)).toUInt32 * 0x1000000

/-- The positions `start` up to but not including `stop` are a range of `b`. -/
def InRange (b : Bytes) (start stop : Nat) : Prop :=
  start ≤ stop ∧ stop ≤ b.size

instance (b : Bytes) (start stop : Nat) : Decidable (b.InRange start stop) :=
  inferInstanceAs (Decidable (_ ∧ _))

/-- The bytes from `start` up to but not including `stop`, when that is a range. -/
def slice? (b : Bytes) (start stop : Nat) : Option Bytes :=
  if b.InRange start stop then some (b.extract start stop) else none

theorem slice?_eq_some {b : Bytes} {start stop : Nat} (h : b.InRange start stop) :
    b.slice? start stop = some (b.extract start stop) := by
  simp [slice?, h]

/-! ## Writing -/

/-- The four little-endian bytes of a word. -/
def ofWord (w : UInt32) : Bytes :=
  ⟨#[w.toUInt8, (w / 0x100).toUInt8, (w / 0x10000).toUInt8, (w / 0x1000000).toUInt8]⟩

/-- `n` zero bytes. -/
def zeros (n : Nat) : Bytes :=
  ⟨Array.replicate n 0⟩

/-- The pieces one after the other. -/
def concat (pieces : List Bytes) : Bytes :=
  pieces.foldl (· ++ ·) ByteArray.empty

/-- The first `n` bytes, all of them when there are fewer. -/
def take (b : Bytes) (n : Nat) : Bytes :=
  b.extract 0 n

/-- The bytes of `b` with `new` written over them from position `start`. -/
def overwrite (b : Bytes) (start : Nat) (new : Bytes) : Bytes :=
  b.extract 0 start ++ new ++ b.extract (start + new.size) b.size

/-! ## What the operations do to sizes and bytes -/

/-- Byte strings are compared byte by byte. -/
theorem beq_iff {a b : Bytes} : (a == b) = true ↔ a = b := by
  change (a.data == b.data) = true ↔ _
  rw [beq_iff_eq, ByteArray.ext_iff]

@[simp] theorem size_ofWord (w : UInt32) : (ofWord w).size = 4 := rfl

@[simp] theorem size_zeros (n : Nat) : (zeros n).size = n :=
  Array.size_replicate

theorem byteAt_of_lt {b : Bytes} {i : Nat} (h : i < b.size) : b.byteAt i = b[i] := by
  simp [byteAt, h]

theorem byteAt_of_le {b : Bytes} {i : Nat} (h : b.size ≤ i) : b.byteAt i = 0 := by
  simp [byteAt, Nat.not_lt.2 h]

theorem byteAt_append_left {a b : Bytes} {i : Nat} (h : i < a.size) :
    byteAt (a ++ b) i = a.byteAt i := by
  have hlt : i < (a ++ b).size := by simp only [ByteArray.size_append]; omega
  rw [byteAt_of_lt hlt, byteAt_of_lt h, ByteArray.getElem_append_left h]

theorem byteAt_append_right {a b : Bytes} {i : Nat} :
    byteAt (a ++ b) (a.size + i) = b.byteAt i := by
  by_cases h : i < b.size
  · have hlt : a.size + i < (a ++ b).size := by simp only [ByteArray.size_append]; omega
    rw [byteAt_of_lt hlt, byteAt_of_lt h, ByteArray.getElem_append_right (by omega)]
    simp
  · rw [byteAt_of_le (by simp only [ByteArray.size_append]; omega), byteAt_of_le (by omega)]

theorem word_append_left {a b : Bytes} {p : Nat} (h : p + 4 ≤ a.size) :
    word (a ++ b) p = a.word p := by
  simp only [word]
  rw [byteAt_append_left (by omega), byteAt_append_left (by omega),
    byteAt_append_left (by omega), byteAt_append_left (by omega)]

end Bytes

end ShaderIntake
