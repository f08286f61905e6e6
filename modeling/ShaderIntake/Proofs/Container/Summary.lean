import ShaderIntake.Container.Summary
import ShaderIntake.Proofs.Container.Chunks
import ShaderIntake.Proofs.Json.Digits
import ShaderIntake.Proofs.Text

/-!
# Summaries can be told apart

The summary of a container is a line about the container and a line for each entry of its table
(`lines_summary`), because no code can break a line.  A code is not quoted in its line and may
hold spaces, brackets and digits; the number behind it has no space, so the last space but one
ends the code (`listing_inj`), and the code is known by its text.

So a summary shows the declared size and the codes and sizes of the chunks, and nothing else
(`summary_is_unambiguous`).
-/

namespace ShaderIntake

open Text

/-! ## The lines -/

/-- The line about the chunk numbered `index`, without a line break. -/
def ChunkExtent.listing (index : Nat) (x : ChunkExtent) : String :=
  "  [" ++ twoDigits index ++ "] " ++ x.fourcc.text ++ " " ++ toString x.size ++ " bytes"

theorem printable_twoDigits (n : Nat) : Printable (twoDigits n) := by
  rw [twoDigits]
  split
  · exact .append .words (printable_number n)
  · exact printable_number n

namespace ChunkExtent

variable {index : Nat} {x y : ChunkExtent}

theorem summaryLine_eq (index : Nat) (x : ChunkExtent) :
    x.summaryLine index = "\n" ++ x.listing index := by
  simp only [summaryLine, listing, ← String.append_assoc]
  rfl

theorem printable_listing (index : Nat) (x : ChunkExtent) : Printable (x.listing index) :=
  .value (.value (.value .words (printable_twoDigits index) .words)
    x.fourcc.printable_text .words) (printable_number x.size) .words

theorem listing_ne_empty (index : Nat) (x : ChunkExtent) : x.listing index ≠ "" := by
  simp [listing]

/-- The number ends the code, whose text may have spaces. -/
theorem listing_inj :
    x.listing index = y.listing index ↔ x.fourcc = y.fourcc ∧ x.size = y.size := by
  constructor
  · intro h
    simp only [listing, String.append_left_inj] at h
    simp only [String.append_assoc, String.append_right_inj] at h
    rw [← String.append_assoc, ← String.append_assoc] at h
    have hspace (f : FourCC) : NoDigit (f.text ++ " ").toList.reverse := by
      rw [String.toList_append, List.reverse_append]
      exact noDigit_cons _ (by decide)
    obtain ⟨hcode, hsize⟩ := append_number_inj (hspace x.fourcc) (hspace y.fourcc) h
    exact ⟨FourCC.text_inj.1 ((String.append_left_inj " ").1 hcode), hsize⟩
  · rintro ⟨hcode, hsize⟩
    rw [listing, hcode, hsize, listing]

end ChunkExtent

namespace Container

/-- The line about the container. -/
def summaryHead (h : Header) : String :=
  h.magic.text ++ " total_size=" ++ toString h.totalSize ++ " chunk_count="
    ++ toString h.chunkCount

/-- The lines about the chunks. -/
def listings (extents : List ChunkExtent) : List String :=
  extents.mapIdx ChunkExtent.listing

/-- The line about a chunk has the number of its place. -/
theorem summaryLines_eq_join (index : Nat) (extents : List ChunkExtent) :
    summaryLines index extents =
      String.join (extents.mapIdx fun i x => x.summaryLine (index + i)) := by
  induction extents generalizing index with
  | nil => rfl
  | cons x rest ih =>
    rw [summaryLines, ih, List.mapIdx_cons, String.join_cons]
    simp only [Nat.add_zero, Nat.add_assoc, Nat.add_comm 1]

theorem summary_eq_join (c : Container) :
    c.summary = summaryHead c.header ++
      String.join (c.extents.mapIdx fun i x => x.summaryLine i) := by
  rw [summary, summaryLines_eq_join, summaryHead]
  simp only [Nat.zero_add]

theorem summary_eq (c : Container) :
    c.summary = summaryHead c.header ++ String.join ((listings c.extents).map ("\n" ++ ·)) := by
  rw [summary_eq_join, listings, List.mapIdx_eq_zipIdx_map, List.mapIdx_eq_zipIdx_map,
    List.map_map]
  simp only [ChunkExtent.summaryLine_eq]
  rfl

theorem printable_summaryHead (h : Header) : Printable (summaryHead h) :=
  .append (.value (.append h.magic.printable_text .words) (printable_number _) .words)
    (printable_number _)

theorem summaryHead_ne_empty (h : Header) : summaryHead h ≠ "" := by
  simp [summaryHead]

theorem of_mem_listings {extents : List ChunkExtent} {line : String} (h : line ∈ listings extents) :
    ∃ index x, line = ChunkExtent.listing index x := by
  obtain ⟨i, hi, rfl⟩ := List.mem_mapIdx.1 h
  exact ⟨i, _, rfl⟩

theorem lines_summary (c : Container) :
    lines c.summary = summaryHead c.header :: listings c.extents := by
  rw [summary_eq]
  apply lines_join_breaks_before (summaryHead_ne_empty _) (printable_summaryHead _).oneLine
  intro line hline
  obtain ⟨index, x, rfl⟩ := of_mem_listings hline
  exact ⟨x.listing_ne_empty index, (x.printable_listing index).oneLine⟩

/-! ## What the lines show -/

/-- The listings show codes and sizes in their order. -/
theorem listings_inj {xs ys : List ChunkExtent} :
    listings xs = listings ys ↔
      (xs.map fun x => (x.fourcc, x.size)) = ys.map fun y => (y.fourcc, y.size) := by
  simp only [List.ext_getElem?_iff, listings, List.getElem?_mapIdx, List.getElem?_map]
  refine forall_congr' fun i => ?_
  cases xs[i]? with
  | none => cases ys[i]? <;> simp
  | some x =>
    cases ys[i]? with
    | none => simp
    | some y => simp [ChunkExtent.listing_inj]

theorem totalSize_eq_of_summaryHead {h h' : Header} (hmagic : h.magic = h'.magic)
    (heq : summaryHead h = summaryHead h') : h.totalSize = h'.totalSize := by
  rw [summaryHead, summaryHead, hmagic] at heq
  simp only [String.append_assoc, String.append_right_inj] at heq
  have hname (t : String) : NoDigit (" chunk_count=" ++ t).toList := by
    rw [String.toList_append]
    exact noDigit_cons _ (by decide)
  exact UInt32.toNat_inj.1 (number_append_inj (hname _) (hname _) heq).1

/-! ## What numbers a line -/

/-- The digits are those of the number, at least two of them. -/
structure NumbersLine (digits : String) (n : Nat) : Prop where
  isDigit : ∀ c ∈ digits.toList, c.isDigit
  two_le : 2 ≤ digits.toList.length
  value : Json.digitsValue digits.toList = n

theorem numbersLine_twoDigits (n : Nat) : NumbersLine (twoDigits n) n := by
  by_cases hn : n < 10
  · have hchars : (twoDigits n).toList = List.replicate 1 '0' ++ Nat.toDigits 10 n := by
      rw [twoDigits, if_pos hn, String.toList_append, toList_number]
      rfl
    have hpos := Nat.length_toDigits_pos (b := 10) (n := n)
    constructor
    case isDigit =>
      rw [hchars]
      exact (Json.isDigits_zeros_append_toDigits 1 n).2
    case two_le =>
      rw [hchars, List.length_append, List.length_replicate]
      omega
    case value => rw [hchars, Json.digitsValue_zeros_append, Json.digitsValue_toDigits]
  · have hchars : (twoDigits n).toList = Nat.toDigits 10 n := by
      rw [twoDigits, if_neg hn, toList_number]
    constructor
    case isDigit =>
      rw [hchars]
      exact (Json.isDigits_toDigits n).2
    case two_le =>
      rw [hchars]
      by_contra hshort
      have hlt := (Nat.length_toDigits_le_iff (b := 10) (n := n) (k := 1) (by omega) (by omega)).1
        (by omega)
      omega
    case value => rw [hchars, Json.digitsValue_toDigits]

/-! ## What a summary shows -/

section WellFormed

variable {b b' : Bytes} (hb : WellFormed b)

include hb

theorem WellFormed.length_extents : (declared b).extents.length = b.chunkCount := by
  rw [hb.extents_declared, List.length_map, List.length_range]

theorem WellFormed.summary_eq_iff (hb' : WellFormed b') :
    (declared b).summary = (declared b').summary ↔
      (declared b).header.totalSize = (declared b').header.totalSize ∧
      ((declared b).extents.map fun x => (x.fourcc, x.size)) =
        (declared b').extents.map fun x => (x.fourcc, x.size) := by
  constructor
  · intro h
    have hlines := congrArg lines h
    rw [lines_summary, lines_summary, List.cons.injEq] at hlines
    exact ⟨totalSize_eq_of_summaryHead rfl hlines.1, listings_inj.1 hlines.2⟩
  · rintro ⟨htotal, hextents⟩
    have hlength := congrArg List.length hextents
    rw [List.length_map, List.length_map, hb.length_extents, hb'.length_extents] at hlength
    have hcount : (declared b).header.chunkCount = (declared b').header.chunkCount :=
      UInt32.toNat_inj.1 hlength
    have hmagic : (declared b).header.magic = (declared b').header.magic := rfl
    rw [summary_eq, summary_eq, summaryHead, summaryHead, hmagic, htotal, hcount,
      listings_inj.2 hextents]

theorem WellFormed.length_lines_summary :
    (lines (declared b).summary).length = 1 + (declared b).header.chunkCount.toNat := by
  rw [lines_summary, List.length_cons, listings, List.length_mapIdx, hb.length_extents,
    Nat.add_comm]
  rfl

/-- No code adds a line break. -/
theorem WellFormed.count_newline_summary :
    (declared b).summary.toList.count '\n' = (declared b).header.chunkCount.toNat := by
  have hlines : ∀ line ∈ listings (declared b).extents, OneLine line := by
    intro line hline
    obtain ⟨index, x, rfl⟩ := of_mem_listings hline
    exact (x.printable_listing index).oneLine
  rw [summary_eq, count_join_breaks_before (printable_summaryHead _).oneLine hlines, listings,
    List.length_mapIdx, hb.length_extents]
  rfl

end WellFormed

theorem isPrintable_of_mem_summary {c : Container} {ch : Char} (h : ch ∈ c.summary.toList) :
    IsPrintable ch ∨ ch = '\n' := by
  rw [summary_eq, String.toList_append, String.toList_join, List.mem_append, List.mem_flatMap] at h
  rcases h with hhead | ⟨_, hmem, hch⟩
  · exact .inl (printable_summaryHead _ ch hhead)
  · obtain ⟨line, hline, rfl⟩ := List.mem_map.1 hmem
    obtain ⟨index, x, rfl⟩ := of_mem_listings hline
    rw [String.toList_append, List.mem_append] at hch
    rcases hch with hbreak | hch
    · exact .inr (List.mem_singleton.1 hbreak)
    · exact .inl (x.printable_listing index ch hch)

/-- The line behind the one about the container has the number zero. -/
theorem getElem?_lines_summary (c : Container) {i : Nat} {x : Chunk} (hx : c.chunks[i]? = some x) :
    (lines c.summary)[i + 1]? = some ("  [" ++ twoDigits i ++ "] " ++ x.fourcc.text ++ " "
      ++ toString x.data.size ++ " bytes") := by
  rw [chunks, List.getElem?_map, Option.map_eq_some_iff] at hx
  obtain ⟨extent, hextent, rfl⟩ := hx
  have hsize := size_read_of_mem_extents (List.mem_of_getElem? hextent)
  rw [lines_summary, List.getElem?_cons_succ, listings, List.getElem?_mapIdx, hextent,
    Option.map_some, ChunkExtent.listing, hsize]
  rfl

/-- Two summaries are the same exactly if the containers have one declared size and list the same
codes with the same sizes in the same order.  A summary has a line for the container and one for
each entry of the table, which begins with the number of the entry in brackets, whatever bytes
the codes have. -/
theorem summary_is_unambiguous :
    (∀ b b' c c', parse b = .ok c → parse b' = .ok c' →
      (c.summary = c'.summary ↔ c.header.totalSize = c'.header.totalSize ∧
        (c.chunks.map fun x => (x.fourcc, x.data.size)) =
          c'.chunks.map fun x => (x.fourcc, x.data.size))) ∧
    ∀ b c, parse b = .ok c →
      (lines c.summary).length = 1 + c.header.chunkCount.toNat ∧
      ∀ i x, c.chunks[i]? = some x → ∃ digits, NumbersLine digits i ∧
        (lines c.summary)[i + 1]? = some
          ("  [" ++ digits ++ "] " ++ x.fourcc.text ++ " " ++ toString x.data.size ++
            " bytes") := by
  constructor
  · intro b b' c c' hparse hparse'
    have hb := wellFormed_of_parse hparse
    have hb' := wellFormed_of_parse hparse'
    obtain rfl := eq_declared_of_parse hparse
    obtain rfl := eq_declared_of_parse hparse'
    rw [hb.summary_eq_iff hb', map_chunks _ Prod.mk, map_chunks _ Prod.mk]
  · intro b c hparse
    have hb := wellFormed_of_parse hparse
    obtain rfl := eq_declared_of_parse hparse
    refine ⟨hb.length_lines_summary, ?_⟩
    intro i x hx
    exact ⟨twoDigits i, numbersLine_twoDigits i, getElem?_lines_summary _ hx⟩

/-- A container with one empty chunk. -/
def emptyChunk (code : FourCC) : Bytes :=
  ⟨#[0x44, 0x58, 0x42, 0x43, 0, 0, 0, 0, 0, 0, 0, 0, 0, 0, 0, 0, 0, 0, 0, 0, 1, 0, 0, 0,
    44, 0, 0, 0, 1, 0, 0, 0, 36, 0, 0, 0, code.b0, code.b1, code.b2, code.b3, 0, 0, 0, 0]⟩

theorem emptyChunk_wellFormed_lineBreak : WellFormed (emptyChunk ⟨0x0a, 0x20, 0x5b, 0x5c⟩) := by
  decide

theorem emptyChunk_wellFormed_escape : WellFormed (emptyChunk ⟨0x5c, 0x78, 0x30, 0x61⟩) := by
  decide

/-- A code that begins with a line break, and one that is spelled like its escape. -/
theorem summary_is_unambiguous_lineBreak :
    ∃ c c', parse (emptyChunk ⟨0x0a, 0x20, 0x5b, 0x5c⟩) = .ok c ∧
      parse (emptyChunk ⟨0x5c, 0x78, 0x30, 0x61⟩) = .ok c' ∧ c.summary ≠ c'.summary ∧
      (lines c.summary).length = 2 ∧ ∃ digits, NumbersLine digits 0 ∧
        (lines c.summary)[1]? = some ("  [" ++ digits ++ "] " ++ "\\x0a [\\" ++ " 0 bytes") := by
  have hparse := emptyChunk_wellFormed_lineBreak.parse_eq_ok
  have hparse' := emptyChunk_wellFormed_escape.parse_eq_ok
  obtain ⟨hlength, hline⟩ := summary_is_unambiguous.2 _ _ hparse
  refine ⟨_, _, hparse, hparse', ?_, hlength, ?_⟩
  · intro hsummary
    have hchunks := ((summary_is_unambiguous.1 _ _ _ _ hparse hparse').1 hsummary).2
    revert hchunks
    decide
  · obtain ⟨digits, hdigits, htext⟩ := hline 0 ⟨⟨0x0a, 0x20, 0x5b, 0x5c⟩, ByteArray.empty⟩ rfl
    have hcode : FourCC.text ⟨0x0a, 0x20, 0x5b, 0x5c⟩ = "\\x0a [\\" := by decide
    have hend : " " ++ (toString ByteArray.empty.size ++ " bytes") = " 0 bytes" := by decide
    refine ⟨digits, hdigits, ?_⟩
    rw [htext, hcode, String.append_assoc, String.append_assoc, hend]

end Container

end ShaderIntake
