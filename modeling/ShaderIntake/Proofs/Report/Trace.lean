import ShaderIntake.Inspection
import ShaderIntake.Proofs.Report.Agreement

/-!
# What is logged

A load logs that it refused the blob, and before that the program if it came as far as to find
one (`LoadTrace`).  An inspection has a line of its own for a blob that is no container, and for
a program part that holds no program (`ToolTrace`).  It looks at every blob, a load at those
that pass its limit and its check of the checksum.

So an inspection logs the line of its own, if it has one, and then the lines of the load.  It
has none where a program is found, because both look for the program in the same place.  There
are never more than two lines (`InspectionTrace`).

The loads have the md5 feature.  Without it one more line, a warning, can stand in front of
those of a load (`Loader.tryLoadWith_unchecked`).
-/

namespace ShaderIntake

/-- A line of a log, as it is passed on to whoever listens. -/
structure LogLine where
  level : String
  message : String
  /-- The named values that come with the message. -/
  fields : List (String × String)

namespace LogLine

def programFound (p : Program) : LogLine :=
  ⟨"DEBUG", "found DXIL program", [("stage", p.version.stage.text),
    ("model", p.version.model.text), ("bitcode_len", toString p.bitcode.size)]⟩

def loadRefused (r : Refusal) (size : Nat) : LogLine :=
  ⟨"DEBUG", "DXIL load refused: " ++ r.message,
    [("len", toString size), ("malformed", toString r.isMalformed)]⟩

def notContainer (e : FormatError) : LogLine :=
  ⟨"DEBUG", "not a DXBC container: " ++ e.message, []⟩

def badProgram (e : FormatError) : LogLine :=
  ⟨"DEBUG", "DXIL program header: " ++ e.message, []⟩

end LogLine

/-- The line for an event. -/
def Event.line (event : Event) : LogLine :=
  ⟨event.level, event.message, event.fields⟩

/-- The lines that are logged on the way to a value, in order. -/
def Logged.lines {α : Type} (l : Logged α) : List LogLine :=
  l.events.map Event.line

namespace Loader

/-! ## Loads -/

/-- The lines of a load of `b` that is refused with `r`.  A program is logged with what is read
from the part that is chosen. -/
inductive LoadTrace (b : Bytes) : Refusal → List LogLine → Prop where
  | programFound {c : Container} {x : Chunk} {p : Program} (hparse : Container.parse b = .ok c)
      (hpart : IsProgramPart c.chunks x) (hprogram : Program.parse x.data = .ok p) :
      LoadTrace b (.unsupported p.version)
        [.programFound p, .loadRefused (.unsupported p.version) b.size]
  | nothingFound {r : Refusal} (hr : ∀ version, r ≠ .unsupported version) :
      LoadTrace b r [.loadRefused r b.size]

/-- The lines of a load with the diagnosis `found`. -/
def linesOf (b : Bytes) (found : Logged Refusal) : List LogLine :=
  found.lines ++ [.loadRefused found.value b.size]

theorem lines_tryLoad (loader : Loader) (b : Bytes) :
    (loader.tryLoad b).lines = linesOf b (loader.diagnose b) :=
  List.map_append

section LoadTrace

variable {b : Bytes} {r : Refusal} {load : List LogLine}

theorem loadTrace_of_nothingFound (hr : ∀ version, r ≠ .unsupported version) :
    LoadTrace b r (linesOf b ⟨r, []⟩) :=
  .nothingFound hr

theorem loadTrace_diagnoseContainer {c : Container} (hparse : Container.parse b = .ok c) :
    LoadTrace b (diagnoseContainer c).value (linesOf b (diagnoseContainer c)) := by
  cases hpart : c.programPart? with
  | some x =>
    rw [diagnoseContainer_of_some hpart]
    cases hprogram : Program.parse x.data with
    | ok p =>
      rw [diagnosePart, hprogram]
      exact .programFound hparse ((Container.programPart?_eq_some_iff c).1 hpart) hprogram
    | error e =>
      rw [diagnosePart_of_error hprogram]
      exact loadTrace_of_nothingFound (by simp)
  | none =>
    cases hstream : c.tokenStream? with
    | some x =>
      rw [diagnoseContainer_of_tokenStream hpart hstream]
      exact loadTrace_of_nothingFound (by simp)
    | none =>
      rw [diagnoseContainer_of_none hpart hstream]
      exact loadTrace_of_nothingFound (by simp)

theorem loadTrace_diagnose (loader : Loader) (b : Bytes) :
    LoadTrace b (loader.diagnose b).value (linesOf b (loader.diagnose b)) := by
  obtain ⟨r, hr, hfound⟩ | ⟨c, hparse, hfound⟩ := diagnose_cases loader b
  · rw [hfound]
    exact loadTrace_of_nothingFound hr
  · rw [hfound]
    exact loadTrace_diagnoseContainer hparse

theorem LoadTrace.programFound_iff (h : LoadTrace b r load) :
    (∃ line ∈ load, line.message = "found DXIL program") ↔ ∃ version, r = .unsupported version := by
  cases h with
  | programFound => simp [LogLine.programFound]
  | nothingFound hr => simp [LogLine.loadRefused, hr, ← String.toList_inj]

theorem LoadTrace.length (h : LoadTrace b r load) : load.length = 1 ∨ load.length = 2 := by
  cases h <;> simp

theorem LoadTrace.last (h : LoadTrace b r load) :
    load.getLast? = some (.loadRefused r b.size) := by
  cases h <;> rfl

/-- No line of a load reads like a line of the inspection. -/
theorem LoadTrace.not_toolLine (h : LoadTrace b r load) {line : LogLine} (hline : line ∈ load)
    (text : String) :
    line.message ≠ "not a DXBC container: " ++ text ∧
      line.message ≠ "DXIL program header: " ++ text := by
  cases h with
  | programFound =>
    simp only [List.mem_cons, List.not_mem_nil, or_false] at hline
    rcases hline with rfl | rfl
    · simp [LogLine.programFound, ← String.toList_inj]
    · simp [LogLine.loadRefused, ← String.toList_inj]
  | nothingFound =>
    cases List.mem_singleton.1 hline
    simp [LogLine.loadRefused, ← String.toList_inj]

end LoadTrace

end Loader

namespace Inspection

/-! ## Inspections -/

/-- The line of its own that an inspection of `b` logs, or none. -/
inductive ToolTrace (b : Bytes) : List LogLine → Prop where
  | notContainer {e : FormatError} (hparse : Container.parse b = .error e) :
      ToolTrace b [.notContainer e]
  | noPart {c : Container} (hparse : Container.parse b = .ok c)
      (hnone : ∀ x ∈ c.chunks, x.fourcc ≠ .dxil ∧ x.fourcc ≠ .ildb) : ToolTrace b []
  | badProgram {c : Container} {x : Chunk} {e : FormatError} (hparse : Container.parse b = .ok c)
      (hpart : IsProgramPart c.chunks x) (hprogram : Program.parse x.data = .error e) :
      ToolTrace b [.badProgram e]
  | program {c : Container} {x : Chunk} {p : Program} (hparse : Container.parse b = .ok c)
      (hpart : IsProgramPart c.chunks x) (hprogram : Program.parse x.data = .ok p) :
      ToolTrace b []

section ToolTrace

variable {b : Bytes} {tool : List LogLine}

theorem toolTrace_contentsOf (b : Bytes) : ToolTrace b (Report.contentsOf b).lines := by
  cases hparse : Container.parse b with
  | error e =>
    rw [Report.contentsOf_of_error hparse]
    exact .notContainer hparse
  | ok c =>
    rw [Report.contentsOf_of_ok hparse]
    cases hpart : c.programPart? with
    | none =>
      rw [Report.programOf_of_none hpart]
      exact .noPart hparse ((Container.programPart?_eq_none_iff c).1 hpart)
    | some x =>
      have hchosen := (Container.programPart?_eq_some_iff c).1 hpart
      cases hprogram : Program.parse x.data with
      | ok p =>
        rw [Report.programOf_of_ok hpart hprogram]
        exact .program hparse hchosen hprogram
      | error e =>
        rw [Report.programOf_of_error hpart hprogram]
        exact .badProgram hparse hchosen hprogram

theorem ToolTrace.message_ne (h : ToolTrace b tool) {line : LogLine} (hline : line ∈ tool) :
    line.message ≠ "found DXIL program" := by
  cases h with
  | notContainer =>
    cases List.mem_singleton.1 hline
    simp [LogLine.notContainer, ← String.toList_inj]
  | badProgram =>
    cases List.mem_singleton.1 hline
    simp [LogLine.badProgram, ← String.toList_inj]
  | noPart => cases hline
  | program => cases hline

theorem ToolTrace.notContainer_iff (h : ToolTrace b tool) (text : String) :
    (∃ line ∈ tool, line.message = "not a DXBC container: " ++ text) ↔
      ∃ e, Container.parse b = .error e ∧ e.message = text := by
  cases h with
  | notContainer hparse => simp [LogLine.notContainer, hparse]
  | badProgram hparse => simp [LogLine.badProgram, hparse, ← String.toList_inj]
  | noPart hparse => simp [hparse]
  | program hparse => simp [hparse]

theorem ToolTrace.badProgram_iff (h : ToolTrace b tool) (text : String) :
    (∃ line ∈ tool, line.message = "DXIL program header: " ++ text) ↔
      ∃ c x e, Container.parse b = .ok c ∧ IsProgramPart c.chunks x ∧
        Program.parse x.data = .error e ∧ e.message = text := by
  -- As the result of a search the part is unique.
  simp only [← Container.programPart?_eq_some_iff]
  cases h with
  | notContainer hparse => simp [LogLine.notContainer, hparse, ← String.toList_inj]
  | badProgram hparse hpart hprogram =>
    rw [← Container.programPart?_eq_some_iff] at hpart
    simp [LogLine.badProgram, hparse, hpart, hprogram]
  | noPart hparse hnone =>
    rw [← Container.programPart?_eq_none_iff] at hnone
    simp [hparse, hnone]
  | program hparse hpart hprogram =>
    rw [← Container.programPart?_eq_some_iff] at hpart
    simp [hparse, hpart, hprogram]

end ToolTrace

/-- The lines of an inspection of `b`, its own before those of the load, which is refused with
`r`. -/
structure InspectionTrace (b : Bytes) (r : Refusal) (tool load : List LogLine) : Prop where
  toolTrace : ToolTrace b tool
  loadTrace : Loader.LoadTrace b r load
  exclusive : tool = [] ∨ load = [.loadRefused r b.size]
  length : (tool ++ load).length = 1 ∨ (tool ++ load).length = 2
  last : (tool ++ load).getLast? = some (.loadRefused r b.size)
  notContainer_iff : ∀ text,
    (∃ line ∈ tool ++ load, line.message = "not a DXBC container: " ++ text) ↔
      ∃ e, Container.parse b = .error e ∧ e.message = text
  badProgram_iff : ∀ text,
    (∃ line ∈ tool ++ load, line.message = "DXIL program header: " ++ text) ↔
      ∃ c x e, Container.parse b = .ok c ∧ IsProgramPart c.chunks x ∧
        Program.parse x.data = .error e ∧ e.message = text
  programFound_iff :
    (∃ line ∈ tool ++ load, line.message = "found DXIL program") ↔
      ∃ version, r = .unsupported version

section InspectionTrace

variable {b : Bytes} {r : Refusal} {tool load : List LogLine}

/-- Where a load finds a program, the inspection does. -/
theorem ToolTrace.exclusive (htool : ToolTrace b tool) (hload : Loader.LoadTrace b r load) :
    tool = [] ∨ load = [.loadRefused r b.size] := by
  cases hload with
  | nothingFound => exact .inr rfl
  | programFound hparse hpart hprogram =>
    left
    cases htool with
    | notContainer hparse' =>
      rw [hparse] at hparse'
      cases hparse'
    | badProgram hparse' hpart' hprogram' =>
      rw [hparse] at hparse'
      cases hparse'
      rw [← Container.programPart?_eq_some_iff] at hpart hpart'
      rw [hpart] at hpart'
      cases hpart'
      rw [hprogram] at hprogram'
      cases hprogram'
    | noPart => rfl
    | program => rfl

theorem ToolTrace.length_le (h : ToolTrace b tool) : tool.length ≤ 1 := by
  cases h <;> simp

theorem exists_mem_append {q : LogLine → Prop} :
    (∃ line ∈ tool ++ load, q line) ↔ (∃ line ∈ tool, q line) ∨ ∃ line ∈ load, q line := by
  simp only [List.mem_append, or_and_right, exists_or]

/-- Each kind of line comes from one of the two traces. -/
theorem inspectionTrace_of_traces (htool : ToolTrace b tool) (hload : Loader.LoadTrace b r load) :
    InspectionTrace b r tool load := by
  have hexclusive := htool.exclusive hload
  constructor
  case toolTrace => exact htool
  case loadTrace => exact hload
  case exclusive => exact hexclusive
  case length =>
    have hlength := htool.length_le
    rcases hexclusive with rfl | rfl
    · exact hload.length
    · rw [List.length_append, List.length_singleton]
      omega
  case last => rw [List.getLast?_append, hload.last, Option.some_or]
  case notContainer_iff =>
    intro text
    rw [exists_mem_append, htool.notContainer_iff, or_iff_left]
    rintro ⟨line, hline, htext⟩
    exact (hload.not_toolLine hline text).1 htext
  case badProgram_iff =>
    intro text
    rw [exists_mem_append, htool.badProgram_iff, or_iff_left]
    rintro ⟨line, hline, htext⟩
    exact (hload.not_toolLine hline text).2 htext
  case programFound_iff =>
    rw [exists_mem_append, hload.programFound_iff, or_iff_right]
    rintro ⟨line, hline, htext⟩
    exact htool.message_ne hline htext

end InspectionTrace

theorem run_eq_printed {read : String → Except String Bytes} {args : List String} {text : String}
    {events : List Event} (h : run read args = .printed text events) :
    ∃ parsed b, CommandLine.parse args = .ok parsed ∧ read parsed.input = .ok b ∧
      events = (inspect parsed.input b ⟨parsed.maxBlobBytes, parsed.structuralMd5⟩).events := by
  unfold run at h
  split at h
  case h_1 => cases h
  case h_2 parsed hparsed =>
    unfold inspectFile at h
    split at h
    case h_1 => cases h
    case h_2 b hb =>
      cases h
      exact ⟨parsed, b, hparsed, hb, rfl⟩

theorem lines_inspect (input : String) (b : Bytes) (loader : Loader) :
    (inspect input b loader).lines = (Report.contentsOf b).lines ++ (loader.tryLoad b).lines :=
  List.map_append

/-- The loader that an inspection is asked to use. -/
def loaderOf (args : Args) : Loader :=
  ⟨args.maxBlobBytes, args.structuralMd5⟩

/-- A load that reports logs the program exactly if it is refused because programs are not
supported, and in every case the refusal behind it; a plain load logs nothing.  An inspection
logs a line of its own where it finds no container or no program, and then the lines of its
load: one or two lines, the last one the refusal. -/
theorem log_traces :
    (∀ (loader : Loader) (b : Bytes), ∃ r, (loader.tryLoad b).value = .error r ∧
        Loader.LoadTrace b r (loader.tryLoad b).lines) ∧
      (∀ (loader : Loader) (b : Bytes), (loader.load b).lines = []) ∧
      ∀ read args text events, run read args = .printed text events →
        ∃ parsed b r tool, CommandLine.parse args = .ok parsed ∧ read parsed.input = .ok b ∧
          ((loaderOf parsed).tryLoad b).value = .error r ∧
          events.map Event.line = tool ++ ((loaderOf parsed).tryLoad b).lines ∧
          InspectionTrace b r tool ((loaderOf parsed).tryLoad b).lines := by
  have hload : ∀ (loader : Loader) (b : Bytes),
      Loader.LoadTrace b (loader.diagnose b).value (loader.tryLoad b).lines := by
    intro loader b
    rw [Loader.lines_tryLoad]
    exact Loader.loadTrace_diagnose loader b
  refine ⟨?_, ?_, ?_⟩
  · intro loader b
    exact ⟨_, rfl, hload loader b⟩
  · intro loader b
    rfl
  · intro read args text events h
    rcases run_eq_printed h with ⟨parsed, b, hparsed, hb, rfl⟩
    exact ⟨parsed, b, _, (Report.contentsOf b).lines, hparsed, hb, rfl,
      lines_inspect _ _ _, inspectionTrace_of_traces (toolTrace_contentsOf b) (hload _ b)⟩

/-- The limit stops the load, but not the inspection, which finds fault with the program. -/
theorem log_traces_overLimit :
    ∃ text events r tool load,
      run (fun _ => .ok Container.nestedChunks) ["--max-blob-bytes=1", "in"] =
          .printed text events ∧
        events.map Event.line = [.badProgram (.programTruncated 4),
          .loadRefused (.tooLarge Container.nestedChunks.size 1) Container.nestedChunks.size] ∧
        events.map Event.line = tool ++ load ∧
        InspectionTrace Container.nestedChunks r tool load := by
  have hargs : CommandLine.parse ["--max-blob-bytes=1", "in"] = .ok ⟨"in", 1, false, false⟩ := by
    rfl
  have hrun : run (fun _ => .ok Container.nestedChunks) ["--max-blob-bytes=1", "in"] =
      .printed
        (render ⟨"in", 1, false, false⟩ (inspect "in" Container.nestedChunks ⟨1, false⟩).value)
        (inspect "in" Container.nestedChunks ⟨1, false⟩).events := by
    rw [run, hargs]
    rfl
  obtain ⟨parsed, b, r, tool, -, hread, -, hlines, htrace⟩ := log_traces.2.2 _ _ _ _ hrun
  cases hread
  exact ⟨_, _, r, tool, _, hrun, by rfl, hlines, htrace⟩

end Inspection

end ShaderIntake
