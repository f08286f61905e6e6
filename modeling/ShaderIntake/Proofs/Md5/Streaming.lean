import ShaderIntake.Md5
import ShaderIntake.Proofs.Bytes

/-!
# MD5 piece by piece

`Stream.Holds.finish_eq`: a stream that has taken in a message piece by piece
ends with the digest of the message, however the message was cut.

The chain after some whole blocks is all that the digest keeps of them
(`absorb_append`), because a block is compressed from its own 64 bytes
(`compress_congr`).  `Stream.Holds` is the invariant of a stream: whole blocks
that the chain stands for, and behind them the pending bytes.
-/

namespace ShaderIntake.Md5

/-! ## Blocks -/

theorem wordIndex_lt {i : Nat} : wordIndex i < 16 := by
  unfold wordIndex
  split
  · assumption
  · split
    · omega
    · split
      · omega
      · omega

section Locality

variable {a b : Bytes} {p q : Nat} (hbyte : ∀ i, i < 64 → a.byteAt (p + i) = b.byteAt (q + i))

include hbyte

theorem step_congr (i : Nat) (h : Chain) : step a p i h = step b q i h := by
  have hindex : wordIndex i < 16 := wordIndex_lt
  have hword : a.word (p + 4 * wordIndex i) = b.word (q + 4 * wordIndex i) := by
    apply Bytes.word_congr
    intro j hj
    rw [Nat.add_assoc, Nat.add_assoc]
    exact hbyte (4 * wordIndex i + j) (by omega)
  unfold step
  rw [hword]

/-- A block is compressed from its own 64 bytes. -/
theorem compress_congr (h : Chain) : compress a p h = compress b q h := by
  have hstep : (fun i (_ : i < 64) s => step a p i s) = fun i _ s => step b q i s := by
    funext i _ s
    exact step_congr hbyte i s
  unfold compress
  rw [hstep]

end Locality

theorem absorb_of_lt {h : Chain} {message : Bytes} (hsize : message.size < 64) :
    absorb h message = h := by
  rw [absorb, show message.size / 64 = 0 by omega, Nat.fold_zero]

/-- The chain after whole blocks is all that is kept of them. -/
theorem absorb_append {h : Chain} {front back : Bytes} (hfront : front.size % 64 = 0) :
    absorb h (front ++ back) = absorb (absorb h front) back := by
  have hblocks : (front ++ back).size / 64 = front.size / 64 + back.size / 64 := by
    rw [ByteArray.size_append]
    omega
  have hfirst : (fun i (_ : i < front.size / 64) s => compress (front ++ back) (64 * i) s) =
      fun i _ s => compress front (64 * i) s := by
    funext i hi s
    apply compress_congr
    intro j hj
    exact Bytes.byteAt_append_left (by omega)
  have hsecond : (fun i (_ : i < back.size / 64) s =>
      compress (front ++ back) (64 * (front.size / 64 + i)) s) =
        fun i _ s => compress back (64 * i) s := by
    funext i _ s
    apply compress_congr
    intro j _
    have hpos : 64 * (front.size / 64 + i) + j = front.size + (64 * i + j) := by omega
    rw [hpos, Bytes.byteAt_append_right]
  rw [absorb, hblocks, Nat.fold_add, hfirst, hsecond, absorb, absorb]

/-- The bytes that do not fill a block do not change the chain. -/
theorem absorb_wholeBlocks (h : Chain) (message : Bytes) :
    absorb h (message.extract 0 (message.size / 64 * 64)) = absorb h message := by
  have hle : message.size / 64 * 64 ≤ message.size := Nat.div_mul_le_self _ _
  have hwhole : (ByteArray.size (message.extract 0 (message.size / 64 * 64))) % 64 = 0 := by
    rw [Bytes.size_extract_of_le hle]
    omega
  have hrest : ByteArray.size (message.extract (message.size / 64 * 64) message.size) < 64 := by
    rw [Bytes.size_extract_of_le (Nat.le_refl _)]
    omega
  calc absorb h (message.extract 0 (message.size / 64 * 64))
      = absorb (absorb h (message.extract 0 (message.size / 64 * 64)))
          (message.extract (message.size / 64 * 64) message.size) := (absorb_of_lt hrest).symm
    _ = absorb h (message.extract 0 (message.size / 64 * 64)
          ++ message.extract (message.size / 64 * 64) message.size) :=
        (absorb_append hwhole).symm
    _ = absorb h message := by rw [Bytes.extract_append_extract_size hle]

/-! ## Streams -/

/-- The stream has taken in `message`: the chain stands for the whole blocks in front,
and the bytes behind them are pending. -/
structure Stream.Holds (s : Stream) (message : Bytes) : Prop where
  blocks : ∃ front : Bytes, message = front ++ s.pending ∧ front.size % 64 = 0 ∧
    s.chain = absorb .initial front
  length : s.length = message.size

theorem Stream.start_holds : Stream.start.Holds ByteArray.empty :=
  ⟨⟨ByteArray.empty, rfl, rfl, rfl⟩, rfl⟩

/-- Taking in a piece appends it. -/
theorem Stream.Holds.feed {s : Stream} {message : Bytes} (hs : s.Holds message)
    (piece : Bytes) : (s.feed piece).Holds (message ++ piece) := by
  obtain ⟨front, hmessage, hfront, hchain⟩ := hs.blocks
  have hlength : (s.feed piece).length = (message ++ piece).size := by
    rw [ByteArray.size_append, ← hs.length]
    rfl
  have hle : (s.pending ++ piece).size / 64 * 64 ≤ (s.pending ++ piece).size :=
    Nat.div_mul_le_self _ _
  refine ⟨⟨front ++ (s.pending ++ piece).extract 0 ((s.pending ++ piece).size / 64 * 64),
    ?_, ?_, ?_⟩, hlength⟩
  · have hpending : (s.feed piece).pending = (s.pending ++ piece).extract
        ((s.pending ++ piece).size / 64 * 64) (s.pending ++ piece).size := rfl
    rw [hpending, ByteArray.append_assoc, Bytes.extract_append_extract_size hle, hmessage,
      ByteArray.append_assoc]
  · rw [ByteArray.size_append, Bytes.size_extract_of_le hle]
    omega
  · have hnext : (s.feed piece).chain = absorb s.chain (s.pending ++ piece) := rfl
    rw [hnext, absorb_append hfront, absorb_wholeBlocks, ← hchain]

/-- The digest of a stream is the digest of what it has taken in. -/
theorem Stream.Holds.finish_eq {s : Stream} {message : Bytes} (hs : s.Holds message) :
    s.finish = digest message := by
  obtain ⟨front, hmessage, hfront, hchain⟩ := hs.blocks
  rw [Stream.finish, digest, hs.length, hchain, ← absorb_append hfront, hmessage,
    ByteArray.append_assoc]

end ShaderIntake.Md5
