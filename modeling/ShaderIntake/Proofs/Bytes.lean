import ShaderIntake.FourCC

/-!
# Parts of byte strings

What reading gives on a byte string that was put together or cut out.

There are five groups.

* `byteAt_extract` says which byte of a range stands where.
* Words and codes read four bytes (`word_congr`, `FourCC.readAt_congr`), so they
  are the same in any part that holds the four (`word_extract`,
  `word_append_right`, and the same for codes).
* A word is the number that its four bytes spell (`toNat_word`), and the bytes
  of a word spell that word (`word_ofWord`).
* A range behind some bytes is the range of what follows them
  (`extract_append_right`), and `concat` puts pieces one after the other
  (`concat_cons`).
* Writing over a range changes the bytes in it and no others (`byteAt_overwrite`),
  and byte strings of one size are equal when their bytes are (`ext_byteAt`), as are
  their ranges (`extract_congr`).  The lemmas on what a range holds afterwards go
  through these.

`SameFrom` relates byte strings that differ before some position only.  Everything
that is read from there on is the same in both, and what was written in front of the
position does not show behind it (`sameFrom_overwrite`).
-/

namespace ShaderIntake

namespace Bytes

/-! ## Single bytes -/

/-- The bytes of a range, and zeros behind its end. -/
theorem byteAt_extract (b : Bytes) (start stop i : Nat) :
    byteAt (b.extract start stop) i = if start + i < stop then b.byteAt (start + i) else 0 := by
  by_cases hi : i < (b.extract start stop).size
  · have hbounds := hi
    rw [ByteArray.size_extract] at hbounds
    rw [byteAt_of_lt hi, ByteArray.getElem_extract, if_pos (by omega), byteAt_of_lt]
  · rw [byteAt_of_le (by omega)]
    rw [ByteArray.size_extract] at hi
    split
    · rw [byteAt_of_le (by omega)]
    · rfl

/-! ## Words -/

/-- A word is a function of its four bytes. -/
theorem word_congr {a b : Bytes} {p q : Nat}
    (hbyte : ∀ i, i < 4 → a.byteAt (p + i) = b.byteAt (q + i)) : a.word p = b.word q := by
  have h0 := hbyte 0 (by omega)
  simp only [Nat.add_zero] at h0
  unfold word
  rw [h0, hbyte 1 (by omega), hbyte 2 (by omega), hbyte 3 (by omega)]

theorem word_extract {b : Bytes} {start stop p : Nat} (h : start + p + 4 ≤ stop) :
    word (b.extract start stop) p = b.word (start + p) := by
  apply word_congr
  intro i hi
  rw [byteAt_extract, if_pos (by omega), Nat.add_assoc]

theorem word_append_right {a b : Bytes} {p : Nat} :
    word (a ++ b) (a.size + p) = b.word p := by
  apply word_congr
  intro i _
  rw [Nat.add_assoc, byteAt_append_right]

/-- The number that the four bytes of a word spell, lowest byte first. -/
theorem toNat_word (b : Bytes) (p : Nat) :
    (b.word p).toNat = (b.byteAt p).toNat + (b.byteAt (p + 1)).toNat * 0x100
      + (b.byteAt (p + 2)).toNat * 0x10000 + (b.byteAt (p + 3)).toNat * 0x1000000 := by
  have h0 := (b.byteAt p).toNat_lt
  have h1 := (b.byteAt (p + 1)).toNat_lt
  have h2 := (b.byteAt (p + 2)).toNat_lt
  have h3 := (b.byteAt (p + 3)).toNat_lt
  simp only [word, UInt32.toNat_add, UInt32.toNat_mul, UInt8.toNat_toUInt32,
    UInt32.reduceToNat]
  omega

/-- The bytes of a word spell the word. -/
theorem word_ofWord (w : UInt32) : word (ofWord w) 0 = w := by
  have hw := w.toNat_lt
  have hbytes : (word (ofWord w) 0).toNat = w.toUInt8.toNat + (w / 0x100).toUInt8.toNat * 0x100
      + (w / 0x10000).toUInt8.toNat * 0x10000 + (w / 0x1000000).toUInt8.toNat * 0x1000000 :=
    toNat_word (ofWord w) 0
  simp only [UInt32.toNat_toUInt8, UInt32.toNat_div, UInt32.reduceToNat] at hbytes
  apply UInt32.toNat_inj.mp
  omega

theorem word_ofWord_append (w : UInt32) (b : Bytes) : word (ofWord w ++ b) 0 = w := by
  rw [word_append_left (by simp), word_ofWord]

/-- A word between other bytes. -/
theorem word_of_eq {b front back : Bytes} {w : UInt32} {p : Nat}
    (hb : b = front ++ (ofWord w ++ back)) (hp : p = front.size) : b.word p = w := by
  rw [hb, show p = front.size + 0 from hp, word_append_right, word_ofWord_append]

/-! ## Ranges and pieces -/

theorem size_extract_of_le {b : Bytes} {start stop : Nat} (h : stop ≤ b.size) :
    (b.extract start stop).size = stop - start := by
  rw [ByteArray.size_extract, Nat.min_eq_left h]

theorem size_extract_zero {b : Bytes} {stop : Nat} (h : stop ≤ b.size) :
    (b.extract 0 stop).size = stop := by
  rw [size_extract_of_le h, Nat.sub_zero]

theorem take_eq_self {b : Bytes} {n : Nat} (h : b.size ≤ n) : b.take n = b := by
  apply ByteArray.ext
  rw [take, ByteArray.data_extract]
  exact Array.extract_eq_self_of_le h

theorem byteAt_take {b : Bytes} {n i : Nat} (hi : i < n) : (b.take n).byteAt i = b.byteAt i := by
  rw [take, byteAt_extract, Nat.zero_add, if_pos hi]

theorem extract_extract_of_le {b : Bytes} {start stop i j : Nat} (h : start + j ≤ stop) :
    (b.extract start stop).extract i j = b.extract (start + i) (start + j) := by
  rw [ByteArray.extract_extract, Nat.min_eq_left h]

theorem extract_append_extract_size {b : Bytes} {i : Nat} (h : i ≤ b.size) :
    b.extract 0 i ++ b.extract i b.size = b := by
  rw [ByteArray.extract_append_extract, Nat.zero_min, Nat.max_eq_right h]
  exact ByteArray.extract_zero_size

theorem extract_append_right {a b : Bytes} {i j : Nat} :
    (a ++ b).extract (a.size + i) (a.size + j) = b.extract i j :=
  ByteArray.extract_append_size_add

/-- A range that ends before the bytes that follow does not hold any of them. -/
theorem extract_append_left {a b : Bytes} {i j : Nat} (h : j ≤ a.size) :
    (a ++ b).extract i j = a.extract i j := by
  have hnone : b.extract (i - a.size) 0 = ByteArray.empty := by simp
  rw [ByteArray.extract_append, show j - a.size = 0 by omega, hnone, ByteArray.append_empty]

/-- A range between other bytes. -/
theorem extract_of_eq {b front part back : Bytes} {i j : Nat}
    (hb : b = front ++ (part ++ back)) (hi : i = front.size)
    (hj : j = front.size + part.size) : b.extract i j = part := by
  rw [hb, show i = front.size + 0 from hi, hj, extract_append_right,
    extract_append_left (by omega)]
  exact ByteArray.extract_zero_size

private theorem foldl_append (a : Bytes) (pieces : List Bytes) :
    pieces.foldl (· ++ ·) a = a ++ concat pieces := by
  induction pieces generalizing a with
  | nil => simp [concat]
  | cons piece pieces ih =>
    have hconcat : concat (piece :: pieces) = piece ++ concat pieces := by
      rw [concat, List.foldl_cons, ih, ByteArray.empty_append]
    rw [List.foldl_cons, ih, hconcat, ByteArray.append_assoc]

@[simp] theorem concat_nil : concat [] = ByteArray.empty := rfl

@[simp] theorem concat_cons (piece : Bytes) (pieces : List Bytes) :
    concat (piece :: pieces) = piece ++ concat pieces := by
  rw [concat, List.foldl_cons, foldl_append, ByteArray.empty_append]

theorem concat_append (front back : List Bytes) :
    concat (front ++ back) = concat front ++ concat back := by
  induction front with
  | nil => simp
  | cons piece front ih => simp [ih, ByteArray.append_assoc]

/-- A piece between the pieces before it and those behind it. -/
theorem concat_split {pieces : List Bytes} {piece : Bytes} {i : Nat}
    (h : pieces[i]? = some piece) :
    concat pieces = concat (pieces.take i) ++ (piece ++ concat (pieces.drop (i + 1))) := by
  obtain ⟨hi, rfl⟩ := List.getElem?_eq_some_iff.1 h
  rw [← concat_cons, ← concat_append, List.getElem_cons_drop, List.take_append_drop]

/-! ## Writing over a range -/

theorem ext_byteAt {a b : Bytes} (hsize : a.size = b.size)
    (hbyte : ∀ i, i < b.size → a.byteAt i = b.byteAt i) : a = b := by
  apply ByteArray.ext_getElem hsize
  intro i ha hb
  rw [← byteAt_of_lt ha, ← byteAt_of_lt hb]
  exact hbyte i hb

/-- A range is a function of its bytes. -/
theorem extract_congr {a b : Bytes} {start stop : Nat} (hsize : min stop a.size = min stop b.size)
    (hbyte : ∀ p, start ≤ p → p < stop → a.byteAt p = b.byteAt p) :
    a.extract start stop = b.extract start stop := by
  apply ext_byteAt
  · rw [ByteArray.size_extract, ByteArray.size_extract, hsize]
  · intro i hi
    rw [ByteArray.size_extract] at hi
    rw [byteAt_extract, byteAt_extract, hbyte _ (by omega) (by omega)]

theorem byteAt_append (a b : Bytes) (i : Nat) :
    byteAt (a ++ b) i = if i < a.size then a.byteAt i else b.byteAt (i - a.size) := by
  by_cases hi : i < a.size
  · rw [if_pos hi, byteAt_append_left hi]
  · have hright : byteAt (a ++ b) (a.size + (i - a.size)) = b.byteAt (i - a.size) :=
      byteAt_append_right
    rw [if_neg hi, ← hright, Nat.add_sub_cancel' (by omega)]

section Overwrite

variable {b new : Bytes} {start : Nat} (h : start + new.size ≤ b.size)

include h

theorem size_overwrite : (b.overwrite start new).size = b.size := by
  rw [overwrite, ByteArray.size_append, ByteArray.size_append, size_extract_zero (by omega),
    size_extract_of_le (Nat.le_refl _)]
  omega

/-- The new bytes stand in their range, and the old ones around it. -/
theorem byteAt_overwrite (i : Nat) :
    byteAt (b.overwrite start new) i =
      if start ≤ i ∧ i < start + new.size then new.byteAt (i - start) else b.byteAt i := by
  have hfront : ByteArray.size (b.extract 0 start) = start := size_extract_zero (by omega)
  rw [overwrite, byteAt_append, byteAt_append, ByteArray.size_append, hfront]
  by_cases hleft : i < start
  · rw [if_pos (by omega), if_pos hleft, if_neg (by omega), byteAt_extract, if_pos (by omega),
      Nat.zero_add]
  · by_cases hnew : i < start + new.size
    · rw [if_pos hnew, if_neg hleft, if_pos ⟨by omega, hnew⟩]
    · rw [if_neg hnew, if_neg (by omega), byteAt_extract, Nat.add_sub_cancel' (by omega)]
      split
      · rfl
      · rw [byteAt_of_le (by omega)]

theorem byteAt_overwrite_of_lt {i : Nat} (hi : i < start) :
    byteAt (b.overwrite start new) i = b.byteAt i := by
  rw [byteAt_overwrite h, if_neg (by omega)]

theorem byteAt_overwrite_of_le {i : Nat} (hi : start + new.size ≤ i) :
    byteAt (b.overwrite start new) i = b.byteAt i := by
  rw [byteAt_overwrite h, if_neg (by omega)]

theorem word_overwrite_of_lt {p : Nat} (hp : p + 4 ≤ start) :
    word (b.overwrite start new) p = b.word p := by
  apply word_congr
  intro i _
  exact byteAt_overwrite_of_lt h (by omega)

/-- What was written is there. -/
theorem extract_overwrite :
    (b.overwrite start new).extract start (start + new.size) = new := by
  apply ext_byteAt
  · rw [size_extract_of_le (by rw [size_overwrite h]; exact h)]
    omega
  · intro i hi
    rw [byteAt_extract, if_pos (by omega), byteAt_overwrite h, if_pos (by omega),
      Nat.add_sub_cancel_left]

/-- A range in front of what was written stays. -/
theorem extract_overwrite_of_lt {i j : Nat} (hj : j ≤ start) :
    (b.overwrite start new).extract i j = b.extract i j := by
  apply extract_congr
  · rw [size_overwrite h]
  · intro p _ hp
    exact byteAt_overwrite_of_lt h (by omega)

/-- Cutting behind what was written can as well be done before it. -/
theorem extract_zero_overwrite {stop : Nat} (hnew : start + new.size ≤ stop)
    (hstop : stop ≤ b.size) :
    (b.overwrite start new).extract 0 stop = overwrite (b.extract 0 stop) start new := by
  have hsize : ByteArray.size (b.extract 0 stop) = stop := size_extract_zero hstop
  have hinside : start + new.size ≤ ByteArray.size (b.extract 0 stop) := by omega
  apply ext_byteAt
  · rw [size_extract_zero (by rw [size_overwrite h]; exact hstop), size_overwrite hinside, hsize]
  · intro i hi
    rw [size_overwrite hinside, hsize] at hi
    have hold : byteAt (b.extract 0 stop) i = b.byteAt i := by
      rw [byteAt_extract, Nat.zero_add, if_pos hi]
    rw [byteAt_extract, Nat.zero_add, if_pos hi, byteAt_overwrite h, byteAt_overwrite hinside,
      hold]

/-- Of two writes to one range the second counts. -/
theorem overwrite_overwrite {newer : Bytes} (hnewer : newer.size = new.size) :
    (b.overwrite start new).overwrite start newer = b.overwrite start newer := by
  have hlast : start + newer.size ≤ b.size := by omega
  have hover : start + newer.size ≤ (b.overwrite start new).size := by
    rw [size_overwrite h]
    exact hlast
  apply ext_byteAt
  · rw [size_overwrite hover, size_overwrite h, size_overwrite hlast]
  · intro i _
    rw [byteAt_overwrite hover, byteAt_overwrite hlast, byteAt_overwrite h, hnewer]
    split
    · rfl
    · rfl

/-- Writing what is there already changes nothing. -/
theorem overwrite_eq_self (hsame : b.extract start (start + new.size) = new) :
    b.overwrite start new = b := by
  apply ext_byteAt (size_overwrite h)
  intro i _
  rw [byteAt_overwrite h]
  by_cases hi : start ≤ i ∧ i < start + new.size
  · rw [if_pos hi, ← hsame, byteAt_extract, if_pos (by omega), Nat.add_sub_cancel' hi.1]
  · rw [if_neg hi]

end Overwrite

/-- A word that was written is read back. -/
theorem word_overwrite_ofWord {b : Bytes} {p : Nat} (w : UInt32) (h : p + 4 ≤ b.size) :
    word (b.overwrite p (ofWord w)) p = w := by
  apply word_of_eq (ByteArray.append_assoc ..)
  rw [size_extract_zero (by omega)]

/-! ## The same bytes from a position on -/

/-- `b'` has the size of `b`, and its bytes from position `start` on. -/
structure SameFrom (start : Nat) (b b' : Bytes) : Prop where
  size_eq : b'.size = b.size
  byteAt_eq : ∀ p, start ≤ p → b'.byteAt p = b.byteAt p

namespace SameFrom

variable {start : Nat} {b b' : Bytes} (h : SameFrom start b b')

include h

theorem mono {start' : Nat} (hstart : start ≤ start') : SameFrom start' b b' :=
  ⟨h.size_eq, fun p hp => h.byteAt_eq p (Nat.le_trans hstart hp)⟩

theorem word_eq {p : Nat} (hp : start ≤ p) : b'.word p = b.word p := by
  apply word_congr
  intro i _
  exact h.byteAt_eq _ (by omega)

theorem readAt_eq {p : Nat} (hp : start ≤ p) : FourCC.readAt b' p = FourCC.readAt b p := by
  simp only [FourCC.readAt, h.byteAt_eq p hp, h.byteAt_eq (p + 1) (by omega),
    h.byteAt_eq (p + 2) (by omega), h.byteAt_eq (p + 3) (by omega)]

theorem extract_eq {i : Nat} (hi : start ≤ i) (j : Nat) : b'.extract i j = b.extract i j := by
  apply extract_congr
  · rw [h.size_eq]
  · intro p hp _
    exact h.byteAt_eq p (Nat.le_trans hi hp)

/-- Cutting the ends off keeps what is the same. -/
theorem extract_zero (stop : Nat) : SameFrom start (b.extract 0 stop) (b'.extract 0 stop) := by
  constructor
  case size_eq => rw [ByteArray.size_extract, h.size_eq, ByteArray.size_extract]
  case byteAt_eq =>
    intro p hp
    rw [byteAt_extract, byteAt_extract, Nat.zero_add, h.byteAt_eq p hp]

end SameFrom

theorem sameFrom_overwrite {b new : Bytes} {start : Nat} (h : start + new.size ≤ b.size) :
    SameFrom (start + new.size) b (b.overwrite start new) where
  size_eq := size_overwrite h
  byteAt_eq := fun _ => byteAt_overwrite_of_le h

end Bytes

/-! ## Codes -/

namespace FourCC

/-- A code is a function of its four bytes. -/
theorem readAt_congr {a b : Bytes} {p q : Nat}
    (hbyte : ∀ i, i < 4 → a.byteAt (p + i) = b.byteAt (q + i)) : readAt a p = readAt b q := by
  have h0 := hbyte 0 (by omega)
  simp only [Nat.add_zero] at h0
  unfold readAt
  rw [h0, hbyte 1 (by omega), hbyte 2 (by omega), hbyte 3 (by omega)]

theorem readAt_extract {b : Bytes} {start stop p : Nat} (h : start + p + 4 ≤ stop) :
    readAt (b.extract start stop) p = readAt b (start + p) := by
  apply readAt_congr
  intro i hi
  rw [Bytes.byteAt_extract, if_pos (by omega), Nat.add_assoc]

theorem readAt_append_left {a b : Bytes} {p : Nat} (h : p + 4 ≤ a.size) :
    readAt (a ++ b) p = readAt a p := by
  apply readAt_congr
  intro i hi
  rw [Bytes.byteAt_append_left (by omega)]

theorem readAt_append_right {a b : Bytes} {p : Nat} :
    readAt (a ++ b) (a.size + p) = readAt b p := by
  apply readAt_congr
  intro i _
  rw [Nat.add_assoc, Bytes.byteAt_append_right]

theorem readAt_toBytes_append (f : FourCC) (b : Bytes) : readAt (f.toBytes ++ b) 0 = f := by
  rw [readAt_append_left (by simp), readAt_toBytes]

/-- A code between other bytes. -/
theorem readAt_of_eq {b front back : Bytes} {f : FourCC} {p : Nat}
    (hb : b = front ++ (f.toBytes ++ back)) (hp : p = front.size) : readAt b p = f := by
  rw [hb, show p = front.size + 0 from hp, readAt_append_right, readAt_toBytes_append]

theorem readAt_overwrite_of_lt {b new : Bytes} {start p : Nat} (h : start + new.size ≤ b.size)
    (hp : p + 4 ≤ start) : readAt (b.overwrite start new) p = readAt b p := by
  apply readAt_congr
  intro i hi
  exact Bytes.byteAt_overwrite_of_lt h (by omega)

/-- The code in front of at least four bytes. -/
theorem ofBytes?_eq_some {b : Bytes} (h : 4 ≤ b.size) : ofBytes? b = some (readAt b 0) := by
  have hrange : b.InRange 0 4 := ⟨by omega, h⟩
  rw [ofBytes?, Bytes.slice?_eq_some hrange, Option.map_some, readAt_extract (by omega)]

end FourCC

end ShaderIntake
