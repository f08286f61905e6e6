import ShaderIntake.Proofs.Container.Summary
import ShaderIntake.Proofs.Report.Containment
import ShaderIntake.Proofs.Report.Lossless

/-!
# Summaries made again

The text form of a report prints the summary of a container and the JSON form leaves it out.
Nothing is lost: the summary is made of the declared size and the listed chunks
(`summary_eq_summaryOf`).  It counts the entries of the table and goes through the chunks
once more, and so it counts what is listed, because no entry is passed over.

So the whole report can be made again from its JSON form (`withSummary_withoutSummary`), and
with it the text form.
-/

namespace ShaderIntake

namespace Report

/-! ## The summary of what is listed -/

/-- The line of a summary about a chunk and its place in the list. -/
def chunkLine (index : Nat) (x : ChunkReport) : String :=
  "\n  [" ++ twoDigits index ++ "] " ++ x.fourcc ++ " " ++ toString x.sizeBytes ++ " bytes"

/-- The summary of a container from its declared size and the list of its chunks. -/
def summaryOf (totalSize : Nat) (chunks : List ChunkReport) : String :=
  "DXBC" ++ " total_size=" ++ toString totalSize ++ " chunk_count=" ++ toString chunks.length
    ++ String.join (chunks.mapIdx chunkLine)

/-- The report with each summary made again from what is listed. -/
def withSummary (r : Report) : Report :=
  { r with
    container := r.container.map fun c => { c with summary := summaryOf c.totalSize c.chunks } }

open Container (WellFormed declared)

/-- No entry of the table is passed over, so the summary counts what is listed. -/
theorem summary_eq_summaryOf {b : Bytes} (hb : WellFormed b) :
    (declared b).summary = summaryOf (ofContainer (declared b)).totalSize
      (ofContainer (declared b)).chunks := by
  have hmagic : (declared b).header.magic.text = "DXBC" := by
    change FourCC.dxbc.text = "DXBC"
    decide
  have hchunks : (ofContainer (declared b)).chunks.mapIdx chunkLine =
      (declared b).extents.mapIdx fun i x => x.summaryLine i := by
    change ((declared b).extents.map fun x => ⟨x.fourcc.text, x.size⟩).mapIdx chunkLine = _
    rw [List.mapIdx_eq_zipIdx_map, List.mapIdx_eq_zipIdx_map, List.zipIdx_map, List.map_map]
    rfl
  rw [Container.summary_eq_join, Container.summaryHead, hmagic, summaryOf, hchunks,
    length_chunks_ofContainer hb]
  rfl

example : summaryOf 60 [⟨"ILDB", 12⟩, ⟨"DXIL", 4⟩] =
    "DXBC total_size=60 chunk_count=2\n  [00] ILDB 12 bytes\n  [01] DXIL 4 bytes" := by
  decide

theorem summary_inspect {input : String} {b : Bytes} {loader : Loader} {c : ContainerReport}
    (h : (inspect input b loader).value.container = some c) :
    c.summary = summaryOf c.totalSize c.chunks := by
  cases hparse : Container.parse b with
  | error e =>
    rw [container_inspect, contentsOf_of_error hparse] at h
    cases h
  | ok container =>
    rw [container_inspect_of_ok hparse] at h
    obtain rfl := Option.some.inj h
    obtain rfl := Container.eq_declared_of_parse hparse
    exact summary_eq_summaryOf (Container.wellFormed_of_parse hparse)

theorem withSummary_withoutSummary {r : Report}
    (h : ∀ c, r.container = some c → c.summary = summaryOf c.totalSize c.chunks) :
    r.withoutSummary.withSummary = r := by
  obtain ⟨input, sizeBytes, container, program, loaded, diagnosis⟩ := r
  cases container with
  | none => rfl
  | some c =>
    rw [withSummary, withoutSummary]
    simp only [Option.map_some]
    rw [← h c rfl]

end Report

namespace Inspection

open Report (summaryOf)

/-- The whole report of a run is made again from its fields without the summary. -/
theorem Run.withSummary_report (run : Run) : run.report.withoutSummary.withSummary = run.report :=
  Report.withSummary_withoutSummary fun _ => Report.summary_inspect

/-- The lines of text are determined by the JSON.  The summary, which only they have, is made
of the declared size and the listed chunks: it counts them, one for each entry of the table,
and has a line for each with its place in the list. -/
theorem text_output_determined_by_json :
    (∀ b c, Container.parse b = .ok c →
      c.summary = summaryOf (Report.ofContainer c).totalSize (Report.ofContainer c).chunks ∧
        (Report.ofContainer c).chunks.length = c.header.chunkCount.toNat) ∧
      ∀ run run' : Run, (∃ text, run.Prints true text ∧ run'.Prints true text) →
        ∃ text, run.Prints false text ∧ run'.Prints false text := by
  constructor
  · intro b c hparse
    have hb := Container.wellFormed_of_parse hparse
    obtain rfl := Container.eq_declared_of_parse hparse
    exact ⟨Report.summary_eq_summaryOf hb, Report.length_chunks_ofContainer hb⟩
  · intro run run' hjson
    have hfields := Run.prints_same_json_iff.1 hjson
    have hreport : run.report = run'.report := by
      rw [← run.withSummary_report, hfields, run'.withSummary_report]
    refine ⟨run.report.text, Run.prints_text_iff.2 rfl, ?_⟩
    rw [Run.prints_text_iff, hreport]

end Inspection

end ShaderIntake
