import ShaderIntake.Proofs.Container.FirstFault

/-!
# Where a container ends

The declared size is the extent of a container.  Nothing behind it is read, so bytes
may follow (`parse_append`) or be cut off (`parse_take_of_le`); everything before it is
needed, so a shorter byte string is refused (`firstFault_take_of_lt`).

`parse_append` is about every byte string with a whole header and a declared size that
lies inside, container or not: what is reported about it stays the same too.
-/

namespace ShaderIntake.Container

variable {b : Bytes}

/-! ## Bytes that follow -/

section Append

variable (suffix : Bytes)

theorem totalSize_append (hsize : 32 ≤ b.size) : Bytes.totalSize (b ++ suffix) = b.totalSize := by
  rw [Bytes.totalSize, Bytes.word_append_left (by omega), Bytes.totalSize]

theorem chunkCount_append (hsize : 32 ≤ b.size) :
    Bytes.chunkCount (b ++ suffix) = b.chunkCount := by
  rw [Bytes.chunkCount, Bytes.word_append_left (by omega), Bytes.chunkCount]

theorem tableEnd_append (hsize : 32 ≤ b.size) : Bytes.tableEnd (b ++ suffix) = b.tableEnd := by
  rw [Bytes.tableEnd, chunkCount_append suffix hsize, Bytes.tableEnd]

theorem tableOffsets_append (hsize : 32 ≤ b.size) (htable : b.tableEnd ≤ b.size) :
    Bytes.tableOffsets (b ++ suffix) = b.tableOffsets := by
  have hend : b.tableEnd = 32 + 4 * b.chunkCount := rfl
  rw [Bytes.tableOffsets, chunkCount_append suffix hsize, Bytes.tableOffsets]
  apply List.map_congr_left
  intro i hi
  have hlt := List.mem_range.1 hi
  exact Bytes.word_append_left (by omega)

theorem declared_append (hsize : 32 ≤ b.size) (htotal : b.totalSize ≤ b.size)
    (htable : b.tableEnd ≤ b.size) : declared (b ++ suffix) = declared b := by
  rw [declared, declaredHeader, totalSize_append suffix hsize,
    tableOffsets_append suffix hsize htable, Bytes.extract_append_left (by omega),
    Bytes.extract_append_left htotal, Bytes.word_append_left (by omega),
    Bytes.word_append_left (by omega)]
  rfl

/-- Bytes behind the declared size change nothing, neither the container nor the error. -/
theorem parse_append (hsize : 32 ≤ b.size) (htotal : b.totalSize ≤ b.size) :
    parse (b ++ suffix) = parse b := by
  have hlonger : b.size ≤ ByteArray.size (b ++ suffix) := by
    rw [ByteArray.size_append]
    omega
  rw [parse_eq (b ++ suffix), parse_eq b, require_bind_of_pos (by omega),
    require_bind_of_pos hsize, FourCC.readAt_append_left (by omega),
    Bytes.word_append_left (by omega), Bytes.word_append_left (by omega),
    totalSize_append suffix hsize, tableEnd_append suffix hsize]
  apply require_bind_congr
  intro _
  apply require_bind_congr
  intro _
  apply require_bind_congr
  intro _
  rw [require_bind_of_pos (by omega), require_bind_of_pos htotal]
  apply require_bind_congr
  intro htable
  have htable_le : b.tableEnd ≤ b.size := by omega
  rw [Bytes.extract_append_left htotal, tableOffsets_append suffix hsize htable_le,
    declared_append suffix hsize htotal htable_le]

end Append

/-! ## Bytes that are cut off -/

section Take

variable {n : Nat}

theorem totalSize_take (hn : 32 ≤ n) : Bytes.totalSize (b.take n) = b.totalSize := by
  rw [Bytes.totalSize, Bytes.take, Bytes.word_extract (by omega), Nat.zero_add, Bytes.totalSize]

theorem chunkCount_take (hn : 32 ≤ n) : Bytes.chunkCount (b.take n) = b.chunkCount := by
  rw [Bytes.chunkCount, Bytes.take, Bytes.word_extract (by omega), Nat.zero_add,
    Bytes.chunkCount]

theorem readAt_take (hn : 32 ≤ n) : FourCC.readAt (b.take n) 0 = FourCC.readAt b 0 := by
  rw [Bytes.take, FourCC.readAt_extract (by omega)]

/-- What is left after a cut behind the declared size is still the whole container. -/
theorem parse_take_of_le (hb : WellFormed b) (hn : b.totalSize ≤ n) :
    parse (b.take n) = parse b := by
  have hheader := hb.le_totalSize
  by_cases hle : n ≤ b.size
  · have hsize : (b.take n).size = n := Bytes.size_extract_zero hle
    have htotal : (b.take n).totalSize ≤ (b.take n).size := by
      rw [totalSize_take (by omega), hsize]
      exact hn
    have hsplit : b.take n ++ b.extract n b.size = b := Bytes.extract_append_extract_size hle
    rw [← parse_append (b.extract n b.size) (by omega) htotal, hsplit]
  · rw [Bytes.take_eq_self (by omega)]

/-- A cut inside the header leaves too little for a header. -/
theorem firstFault_take_of_lt_header (hn : n < 32) :
    FirstFault (b.take n) .malformedHeader
      s!"need at least {headerSize} bytes, got {(b.take n).size}" := by
  apply FirstFault.headerTruncated
  rw [Bytes.take, ByteArray.size_extract]
  omega

/-- A cut behind the header and before the declared size leaves less than is declared. -/
theorem firstFault_take_of_lt (hb : WellFormed b) (hheader : 32 ≤ n) (hn : n < b.totalSize) :
    FirstFault (b.take n) .outOfBounds
      s!"total_size {(b.take n).totalSize} exceeds buffer length {(b.take n).size}" := by
  have htotal := hb.totalSize_le
  have hsize : (b.take n).size = n := Bytes.size_extract_zero (by omega)
  apply FirstFault.totalSizePastEnd
  · omega
  · rw [readAt_take hheader]
    exact hb.magic
  · rw [chunkCount_take hheader]
    exact hb.chunkCount_le
  · rw [totalSize_take hheader]
    exact hb.le_totalSize
  · rw [totalSize_take hheader, hsize]
    exact hn

/-- Cutting a container before its declared size leaves none. -/
theorem parse_take_ne_ok (hb : WellFormed b) (hn : n < b.totalSize) (c : Container) :
    parse (b.take n) ≠ .ok c := by
  intro hc
  have hfault : ∃ kind text, FirstFault (b.take n) kind text := by
    by_cases hheader : 32 ≤ n
    · exact ⟨_, _, firstFault_take_of_lt hb hheader hn⟩
    · exact ⟨_, _, firstFault_take_of_lt_header (Nat.lt_of_not_le hheader)⟩
  obtain ⟨_, _, hfault⟩ := hfault
  obtain ⟨_, he, _⟩ := hfault.exists_error
  rw [hc] at he
  cases he

end Take

/-- The declared size is the extent of a container.  Of its prefixes exactly those of at
least that size are containers, and they are the same container; the others are refused,
for the header or for the declared size.  And bytes that follow never matter once the
header and the declared size lie inside, whether there is a container or not. -/
theorem totalSize_delimits_container (b : Bytes) :
    (∀ c, parse b = .ok c → ∀ n,
        ((∃ c', parse (b.take n) = .ok c') ↔ c.header.totalSize.toNat ≤ n) ∧
          (c.header.totalSize.toNat ≤ n → parse (b.take n) = .ok c) ∧
          (n < 32 → ∃ e, parse (b.take n) = .error e ∧ e.kind = .malformedHeader) ∧
          (32 ≤ n → n < c.header.totalSize.toNat →
            ∃ e, parse (b.take n) = .error e ∧ e.kind = .outOfBounds)) ∧
      (32 ≤ b.size → b.totalSize ≤ b.size →
        ∀ suffix : Bytes, parse (b ++ suffix) = parse b) := by
  constructor
  · intro c hc n
    have hb := wellFormed_of_parse hc
    have htotal : c.header.totalSize.toNat = b.totalSize := by
      rw [eq_declared_of_parse hc]
      rfl
    rw [htotal]
    refine ⟨⟨?_, ?_⟩, ?_, ?_, ?_⟩
    · intro h
      obtain ⟨c', hc'⟩ := h
      exact Nat.le_of_not_lt fun hn => parse_take_ne_ok hb hn c' hc'
    · intro hn
      exact ⟨c, by rw [parse_take_of_le hb hn, hc]⟩
    · intro hn
      rw [parse_take_of_le hb hn, hc]
    · intro hn
      obtain ⟨e, he, hkind, _⟩ := (firstFault_take_of_lt_header hn).exists_error
      exact ⟨e, he, hkind⟩
    · intro hheader hn
      obtain ⟨e, he, hkind, _⟩ := (firstFault_take_of_lt hb hheader hn).exists_error
      exact ⟨e, he, hkind⟩
  · intro hsize htotal suffix
    exact parse_append suffix hsize htotal

end ShaderIntake.Container
