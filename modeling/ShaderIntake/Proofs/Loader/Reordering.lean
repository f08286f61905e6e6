import ShaderIntake.Proofs.Container.Reordering
import ShaderIntake.Proofs.Loader.Opaque

/-!
# The order of the table and the diagnosis

Where no two chunks share their code, a search for a code finds the same chunk in every order
of the table.  A diagnosis is made of such searches, except for one: where there is no program
part, the first token stream of either model is named, and a container may hold one of each.
Only then does the order show, and only in the code that the refusal names
(`reordering_changes_only_the_order`).
-/

namespace ShaderIntake.Loader

open Container (WellFormed declared Reordered)

/-- The container holds no program part, and token streams of both models. -/
structure HoldsBothStreams (c : Container) : Prop where
  noPart : ∀ x ∈ c.chunks, x.fourcc ≠ .dxil ∧ x.fourcc ≠ .ildb
  shdr : ∃ x ∈ c.chunks, x.fourcc = .shdr
  shex : ∃ x ∈ c.chunks, x.fourcc = .shex

section Order

variable {c c' : Container} (hperm : c'.chunks.Perm c.chunks)

include hperm

theorem HoldsBothStreams.of_perm (h : HoldsBothStreams c) : HoldsBothStreams c' := by
  constructor
  case noPart =>
    intro x hx
    exact h.noPart x (hperm.mem_iff.1 hx)
  case shdr =>
    rcases h.shdr with ⟨x, hx, hcode⟩
    exact ⟨x, hperm.mem_iff.2 hx, hcode⟩
  case shex =>
    rcases h.shex with ⟨x, hx, hcode⟩
    exact ⟨x, hperm.mem_iff.2 hx, hcode⟩

theorem diagnoseContainer_of_perm (hdistinct : (c.chunks.map Chunk.fourcc).Nodup)
    (hstreams : ¬HoldsBothStreams c) : diagnoseContainer c' = diagnoseContainer c := by
  have hpart' := Container.programPart?_of_perm hperm hdistinct
  cases hpart : c.programPart? with
  | some x =>
    rw [hpart] at hpart'
    rw [diagnoseContainer_of_some hpart', diagnoseContainer_of_some hpart]
  | none =>
    -- The token streams count only here, where one of the two models is missing.
    have hnone := (Container.programPart?_eq_none_iff c).1 hpart
    have hmodel : ¬((∃ x ∈ c.chunks, x.fourcc = .shdr) ∧ ∃ x ∈ c.chunks, x.fourcc = .shex) := by
      rintro ⟨hshdr, hshex⟩
      exact hstreams ⟨hnone, hshdr, hshex⟩
    have hstream := Container.tokenStream?_of_perm hperm hdistinct hmodel
    rw [diagnoseContainer, hpart', hstream, diagnoseContainer]

end Order

/-- The token stream that is listed first is named. -/
theorem tryLoad_of_holdsBothStreams {b : Bytes} (hb : WellFormed b)
    (h : HoldsBothStreams (declared b)) {max : Nat} (hmax : b.size ≤ max) :
    ∃ x, IsTokenStream (declared b).chunks x ∧
      (tryLoad ⟨max, false⟩ b).value = .error (.tokenStream x.fourcc) := by
  have hpart := (Container.programPart?_eq_none_iff _).2 h.noPart
  cases hstream : (declared b).tokenStream? with
  | none =>
    rcases h.shdr with ⟨x, hx, hcode⟩
    exact absurd hcode ((Container.tokenStream?_eq_none_iff _).1 hstream x hx).2
  | some x =>
    refine ⟨x, (Container.tokenStream?_eq_some_iff _).1 hstream, ?_⟩
    rw [tryLoad_of_wellFormed hb hmax, diagnoseContainer_of_tokenStream hpart hstream]

/-- A container with its table in another order is a container with its chunks in that order
and the same header.  With distinct codes the same chunks are found by their codes, and every
loader without the check of the checksum does the same, unless there are token streams of both
models and no program part: then the stream that is listed first is named. -/
theorem reordering_changes_only_the_order {b : Bytes} {c : Container}
    (h : Container.parse b = .ok c) (σ : Equiv.Perm (Fin b.chunkCount)) :
    Reordered b (b.reorderTable σ) σ ∧
      ∃ c', Container.parse (b.reorderTable σ) = .ok c' ∧ c'.header = c.header ∧
        c'.chunks.length = b.chunkCount ∧ c.chunks.length = b.chunkCount ∧
        (∀ i : Fin b.chunkCount, c'.chunks[i.val]? = c.chunks[(σ i).val]?) ∧
        ((c.chunks.map Chunk.fourcc).Nodup →
          (∀ f, c'.chunk? f = c.chunk? f) ∧ c'.programPart? = c.programPart? ∧
            (¬HoldsBothStreams c → ∀ max,
              tryLoad ⟨max, false⟩ (b.reorderTable σ) = tryLoad ⟨max, false⟩ b) ∧
            (HoldsBothStreams c → ∀ max, b.size ≤ max →
              ∃ x, IsTokenStream c'.chunks x ∧
                (tryLoad ⟨max, false⟩ (b.reorderTable σ)).value =
                  .error (.tokenStream x.fourcc))) := by
  have hb := Container.wellFormed_of_parse h
  obtain rfl := Container.eq_declared_of_parse h
  have hreordered := Container.reordered_reorderTable (hb.tableEnd_le.trans hb.totalSize_le) σ
  have hb' := hreordered.wellFormed hb
  have hperm := hreordered.chunks_perm hb
  refine ⟨hreordered, declared (b.reorderTable σ), hb'.parse_eq_ok, hreordered.header_eq, ?_,
    hb.length_chunks, hreordered.getElem?_chunks hb, ?_⟩
  · rw [hb'.length_chunks]
    exact hreordered.chunkCount_eq
  · intro hdistinct
    refine ⟨Container.chunk?_of_perm hperm hdistinct,
      Container.programPart?_of_perm hperm hdistinct, ?_, ?_⟩
    · intro hstreams
      exact tryLoad_congr hreordered.size_eq (.inr ⟨_, _, hb'.parse_eq_ok, hb.parse_eq_ok,
        diagnoseContainer_of_perm hperm hdistinct hstreams⟩)
    · intro hstreams max hmax
      exact tryLoad_of_holdsBothStreams hb' (hstreams.of_perm hperm)
        (hreordered.size_eq.trans_le hmax)

/-- Two chunks, `SHDR` at 40 and `SHEX` at 48.  The first chunk holds the second one. -/
def bothStreams : Bytes :=
  ⟨#[0x44, 0x58, 0x42, 0x43, 0, 0, 0, 0, 0, 0, 0, 0, 0, 0, 0, 0, 0, 0, 0, 0, 1, 0, 0, 0,
    56, 0, 0, 0, 2, 0, 0, 0, 40, 0, 0, 0, 48, 0, 0, 0, 0x53, 0x48, 0x44, 0x52, 8, 0, 0, 0,
    0x53, 0x48, 0x45, 0x58, 0, 0, 0, 0]⟩

theorem bothStreams_wellFormed : WellFormed bothStreams := by decide

/-- With the two entries of the table the other way round the other stream is named. -/
theorem reordering_changes_only_the_order_bothStreams :
    Container.parse bothStreams = .ok (declared bothStreams) ∧
      Reordered bothStreams (bothStreams.reorderTable Fin.revPerm) Fin.revPerm ∧
      ((declared bothStreams).chunks.map Chunk.fourcc).Nodup ∧
      HoldsBothStreams (declared bothStreams) ∧
      (tryLoad .standard bothStreams).value = .error (.tokenStream .shdr) ∧
      (tryLoad .standard (bothStreams.reorderTable Fin.revPerm)).value =
        .error (.tokenStream .shex) := by
  have hparse := bothStreams_wellFormed.parse_eq_ok
  have hchunks : (declared bothStreams).chunks =
      [⟨.shdr, ⟨#[0x53, 0x48, 0x45, 0x58, 0, 0, 0, 0]⟩⟩, ⟨.shex, ⟨#[]⟩⟩] := by
    rw [bothStreams_wellFormed.chunks_declared]
    rfl
  have hdistinct : ((declared bothStreams).chunks.map Chunk.fourcc).Nodup := by
    rw [hchunks]
    decide
  have hstreams : HoldsBothStreams (declared bothStreams) := by
    constructor <;> rw [hchunks] <;> decide
  obtain ⟨hreordered, c', -, -, -, -, hentries, hsearches⟩ :=
    reordering_changes_only_the_order hparse Fin.revPerm
  obtain ⟨-, -, -, hnamed⟩ := hsearches hdistinct
  obtain ⟨x, hx, hvalue⟩ := hnamed hstreams defaultMaxBlobBytes (by decide)
  refine ⟨hparse, hreordered, hdistinct, hstreams, by rfl, ?_⟩
  have hlisted : c'.chunks[0]? = some ⟨.shex, ⟨#[]⟩⟩ := by
    rw [hentries ⟨0, by decide⟩, hchunks]
    rfl
  have hcode : x.fourcc = .shex := by
    rcases hx with ⟨before, after, hsplit, -, hbefore⟩
    rw [hsplit] at hlisted
    cases before with
    | nil =>
      cases hlisted
      rfl
    | cons y before =>
      cases hlisted
      exact absurd (.inl rfl) (hbefore _ List.mem_cons_self)
  rw [← hcode]
  exact hvalue

end ShaderIntake.Loader
