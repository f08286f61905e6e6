import ShaderIntake.Proofs.Faulting.Container
import ShaderIntake.Proofs.Faulting.Program
import ShaderIntake.Proofs.FormatError.Defensive
import ShaderIntake.Proofs.Loader.Diagnosis
import ShaderIntake.Report

/-!
# Loading and inspecting without a fault

Loaders and inspections written on the readers that can fault, with the structural
checksum taken only where the loader asks for it and the chunks listed once for every
search.  Like `Loader.diagnose` they have the md5 feature.  A refusal of a reader is a
value here, so what is left to go wrong is a fault.

`inspect_never_faults` is the main statement: the readers, a loader and an inspection
answer on any bytes what the plain ones answer, and no answer is a defensive error.  It
rests on one equation for each function, `…_eq_ok`.
-/

namespace ShaderIntake

namespace Faulting

/-! ## Loading -/

/-- The part with the DXIL program: the first one without debug info, if there is one. -/
def programPart? (f : File) : Except Fault (Option Chunk) := do
  let xs ← chunks f
  return (xs.find? fun x => x.fourcc = .dxil).or (xs.find? fun x => x.fourcc = .ildb)

/-- The first chunk with a token stream older than DXIL. -/
def tokenStream? (f : File) : Except Fault (Option Chunk) := do
  let xs ← chunks f
  return xs.find? fun x => x.fourcc.isTokenStream

/-- The stored checksum is the structural one. -/
def checksumMatches (f : File) : Except Fault Bool := do
  let digest ← structuralMd5 f
  return digest == f.header.checksum

/-- The reason to refuse a program part. -/
def diagnosePart (part : Bytes) : Except Fault (Logged Refusal) := do
  match ← settle (parseProgram part) with
  | .ok program =>
    return ⟨.unsupported program.version, [.programFound program.version program.bitcode.size]⟩
  | .error e => return ⟨.program e, []⟩

/-- The reason to refuse a container whose checksum is settled. -/
def diagnoseContainer (f : File) : Except Fault (Logged Refusal) := do
  match ← programPart? f with
  | some part => diagnosePart part.data
  | none =>
    match ← tokenStream? f with
    | some chunk => return ⟨.tokenStream chunk.fourcc, []⟩
    | none => return ⟨.missingProgram, []⟩

/-- The loader asks for the structural checksum, and the container stores another. -/
def checksumFails (loader : Loader) (f : File) : Except Fault Bool := do
  if loader.structuralMd5 then
    let same ← checksumMatches f
    return !same
  else return false

/-- The reason to refuse a container. -/
def diagnoseFile (loader : Loader) (f : File) : Except Fault (Logged Refusal) := do
  let fails ← checksumFails loader f
  if fails then return ⟨.structuralMd5Mismatch, []⟩ else diagnoseContainer f

/-- The reason to refuse a blob. -/
def diagnose (loader : Loader) (b : Bytes) : Except Fault (Logged Refusal) :=
  if b.size = 0 then return ⟨.empty, []⟩
  else if loader.maxBlobBytes < b.size then return ⟨.tooLarge b.size loader.maxBlobBytes, []⟩
  else do
    match ← settle (parse b) with
    | .error e => return ⟨.container e, []⟩
    | .ok f => diagnoseFile loader f

/-- Loads a blob or reports the reason not to. -/
def tryLoad (loader : Loader) (b : Bytes) : Except Fault (Logged (Except Refusal Unit)) := do
  let found ← diagnose loader b
  return ⟨.error found.value, found.events ++ [.loadRefused found.value b.size]⟩

theorem programPart?_eq_ok (f : File) : programPart? f = .ok f.container.programPart? := by
  rw [programPart?, chunks_eq_ok, ok_bind, Container.programPart?, Container.chunk?,
    Container.chunk?, Container.firstWhere_eq_find?, Container.firstWhere_eq_find?]
  rfl

theorem tokenStream?_eq_ok (f : File) : tokenStream? f = .ok f.container.tokenStream? := by
  rw [tokenStream?, chunks_eq_ok, ok_bind, Container.tokenStream?, Container.firstWhere_eq_find?]
  rfl

theorem checksumMatches_eq_ok {b : Bytes} {f : File} (h : parse b = .ok f) :
    checksumMatches f = .ok f.container.checksumMatches := by
  rw [checksumMatches, structuralMd5_eq_ok h, ok_bind]
  rfl

theorem diagnosePart_eq_ok (part : Bytes) :
    diagnosePart part = .ok (Loader.diagnosePart part) := by
  rw [diagnosePart, parseProgram_eq_refuse, settle_refuse, ok_bind, Loader.diagnosePart]
  cases Program.parse part <;> rfl

theorem diagnoseContainer_eq_ok (f : File) :
    diagnoseContainer f = .ok (Loader.diagnoseContainer f.container) := by
  rw [diagnoseContainer, programPart?_eq_ok, ok_bind, Loader.diagnoseContainer]
  cases f.container.programPart? with
  | some part => exact diagnosePart_eq_ok part.data
  | none =>
    simp only [tokenStream?_eq_ok, ok_bind]
    cases f.container.tokenStream? <;> rfl

theorem diagnoseFile_eq_ok (loader : Loader) {b : Bytes} {f : File} (h : parse b = .ok f) :
    diagnoseFile loader f =
      .ok (Loader.diagnoseChecked Loader.structuralMd5Ok loader f.container) := by
  rw [diagnoseFile, checksumFails, checksumMatches_eq_ok h, diagnoseContainer_eq_ok,
    Loader.diagnoseChecked_structuralMd5Ok]
  cases loader.structuralMd5 <;> cases f.container.checksumMatches <;> rfl

theorem diagnose_eq_ok (loader : Loader) (b : Bytes) :
    diagnose loader b = .ok (loader.diagnose b) := by
  rw [diagnose, Loader.diagnose, Loader.diagnoseWith]
  by_cases hsize : b.size = 0
  · rw [if_pos hsize, if_pos hsize]
    rfl
  rw [if_neg hsize, if_neg hsize]
  by_cases hlimit : loader.maxBlobBytes < b.size
  · rw [if_pos hlimit, if_pos hlimit]
    rfl
  rw [if_neg hlimit, if_neg hlimit]
  obtain ⟨f, hf, hc⟩ | ⟨e, hf, hc⟩ := parse_cases b
  · rw [hf, hc, settle, ok_bind]
    exact diagnoseFile_eq_ok loader hf
  · rw [hf, hc, settle, ok_bind]
    rfl

theorem tryLoad_eq_ok (loader : Loader) (b : Bytes) :
    tryLoad loader b = .ok (loader.tryLoad b) := by
  rw [tryLoad, diagnose_eq_ok, ok_bind]
  rfl

/-! ## Inspecting -/

/-- What a report says of a container: its declared size, its summary and its chunks.  The
chunks are listed for the summary and again for the list. -/
def ofContainer (f : File) : Except Fault ContainerReport := do
  let lines ← chunks f
  let xs ← chunks f
  let summary := f.header.magic.text ++ " total_size=" ++ toString f.header.totalSize
    ++ " chunk_count=" ++ toString f.header.chunkCount
    ++ Container.summaryLines 0 (lines.map fun x => ⟨x.fourcc, 0, x.data.size⟩)
  return ⟨f.header.totalSize.toNat, summary, xs.map fun x => ⟨x.fourcc.text, x.data.size⟩⟩

/-- What the program part of a container holds, and the event if that is no program. -/
def programOf (f : File) : Except Fault (Logged (Option ProgramReport)) := do
  match ← programPart? f with
  | none => return ⟨none, []⟩
  | some part =>
    match ← settle (parseProgram part.data) with
    | .ok program => return ⟨some (Report.ofProgram part.fourcc program), []⟩
    | .error e => return ⟨none, [.badProgram e]⟩

/-- The container and the program in a blob, and the event if one of them is malformed. -/
def contentsOf (b : Bytes) :
    Except Fault (Logged (Option ContainerReport × Option ProgramReport)) := do
  match ← settle (parse b) with
  | .ok f =>
    let container ← ofContainer f
    let program ← programOf f
    return ⟨(some container, program.value), program.events⟩
  | .error e => return ⟨(none, none), [.notContainer e]⟩

/-- The report on a blob that came from `input`, and the events. -/
def inspect (input : String) (b : Bytes) (loader : Loader) : Except Fault (Logged Report) := do
  let contents ← contentsOf b
  let outcome ← tryLoad loader b
  let (loaded, diagnosis) : Bool × Option String :=
    match outcome.value with
    | .ok () => (true, none)
    | .error refusal => (false, some refusal.message)
  return ⟨⟨input, b.size, contents.value.1, contents.value.2, loaded, diagnosis⟩,
    contents.events ++ outcome.events⟩

/-- A summary does not say where the payloads lie. -/
theorem summaryLines_map (index : Nat) (xs : List ChunkExtent) :
    Container.summaryLines index (xs.map fun x => ⟨x.fourcc, 0, x.size⟩) =
      Container.summaryLines index xs := by
  induction xs generalizing index with
  | nil => rfl
  | cons x rest ih =>
    rw [List.map_cons, Container.summaryLines, ih, Container.summaryLines]
    rfl

theorem ofContainer_eq_ok (f : File) : ofContainer f = .ok (Report.ofContainer f.container) := by
  have hlines : (f.container.chunks.map fun x => (⟨x.fourcc, 0, x.data.size⟩ : ChunkExtent)) =
      f.container.extents.map fun x => ⟨x.fourcc, 0, x.size⟩ :=
    f.container.map_chunks fun fourcc size => (⟨fourcc, 0, size⟩ : ChunkExtent)
  have hlist : (f.container.chunks.map fun x => (⟨x.fourcc.text, x.data.size⟩ : ChunkReport)) =
      f.container.extents.map fun x => ⟨x.fourcc.text, x.size⟩ :=
    f.container.map_chunks fun fourcc size => (⟨fourcc.text, size⟩ : ChunkReport)
  rw [ofContainer, chunks_eq_ok, ok_bind, ok_bind, hlines, hlist, summaryLines_map]
  rfl

theorem programOf_eq_ok (f : File) : programOf f = .ok (Report.programOf f.container) := by
  rw [programOf, programPart?_eq_ok, ok_bind, Report.programOf]
  cases f.container.programPart? with
  | none => rfl
  | some part =>
    simp only [parseProgram_eq_refuse, settle_refuse, ok_bind]
    cases Program.parse part.data <;> rfl

theorem contentsOf_eq_ok (b : Bytes) : contentsOf b = .ok (Report.contentsOf b) := by
  rw [contentsOf, Report.contentsOf]
  obtain ⟨f, hf, hc⟩ | ⟨e, hf, hc⟩ := parse_cases b
  · rw [hf, hc, settle, ok_bind]
    simp only [ofContainer_eq_ok, programOf_eq_ok, ok_bind]
    rfl
  · rw [hf, hc, settle, ok_bind]
    rfl

theorem inspect_eq_ok (input : String) (b : Bytes) (loader : Loader) :
    inspect input b loader = .ok (ShaderIntake.inspect input b loader) := by
  rw [inspect, contentsOf_eq_ok, ok_bind, tryLoad_eq_ok, ok_bind]
  rfl

end Faulting

/-! ## Errors that are reported -/

/-- The error that a refusal passes on. -/
def Refusal.formatError? : Refusal → Option FormatError
  | container e | program e => some e
  | _ => none

/-- The error that an event reports. -/
def Event.formatError? : Event → Option FormatError
  | notContainer e | badProgram e => some e
  | loadRefused refusal _ => refusal.formatError?
  | md5Disabled | programFound .. => none

namespace Loader

theorem isGenuine_of_diagnose {loader : Loader} {b : Bytes} {e : FormatError}
    (h : (loader.diagnose b).value.formatError? = some e) : e.IsGenuine := by
  have hreason := reason_diagnose loader b
  generalize (loader.diagnose b).value = r at h hreason
  cases hreason with
  | container _ hparse =>
    obtain rfl := Option.some.inj h
    exact Container.isGenuine_of_parse hparse
  | program _ _ hparse =>
    obtain rfl := Option.some.inj h
    exact Program.isGenuine_of_parse hparse
  | _ => cases h

/-- On the way to a refusal nothing but a program is reported. -/
theorem formatError?_of_mem_diagnose {loader : Loader} {b : Bytes} {event : Event}
    (h : event ∈ (loader.diagnose b).events) : event.formatError? = none := by
  have hpart (part : Bytes) (h : event ∈ (diagnosePart part).events) :
      event.formatError? = none := by
    rw [diagnosePart] at h
    cases hparse : Program.parse part with
    | ok program =>
      rw [hparse] at h
      rw [List.mem_singleton.1 h]
      rfl
    | error e =>
      rw [hparse] at h
      cases h
  obtain ⟨r, -, hfound⟩ | ⟨c, -, hfound⟩ := diagnose_cases loader b
  · rw [hfound] at h
    cases h
  rw [hfound, diagnoseContainer] at h
  split at h
  · exact hpart _ h
  split at h
  · cases h
  · cases h

end Loader

namespace Report

theorem isGenuine_of_contentsOf {b : Bytes} {event : Event} {e : FormatError}
    (h : event ∈ (contentsOf b).events) (he : event.formatError? = some e) : e.IsGenuine := by
  rw [contentsOf] at h
  cases hparse : Container.parse b with
  | error e' =>
    rw [hparse] at h
    rw [List.mem_singleton.1 h] at he
    obtain rfl := Option.some.inj he
    exact Container.isGenuine_of_parse hparse
  | ok c =>
    rw [hparse] at h
    simp only [programOf] at h
    split at h
    · cases h
    split at h
    · cases h
    case h_2 e' hprogram =>
      rw [List.mem_singleton.1 h] at he
      obtain rfl := Option.some.inj he
      exact Program.isGenuine_of_parse hprogram

end Report

theorem isGenuine_of_inspect {input : String} {b : Bytes} {loader : Loader} {event : Event}
    {e : FormatError} (h : event ∈ (inspect input b loader).events)
    (he : event.formatError? = some e) : e.IsGenuine := by
  have hevents : (inspect input b loader).events =
      (Report.contentsOf b).events ++ ((loader.diagnose b).events ++
        [.loadRefused (loader.diagnose b).value b.size]) := rfl
  rw [hevents, List.mem_append, List.mem_append, List.mem_singleton] at h
  obtain hcontents | hfound | rfl := h
  · exact Report.isGenuine_of_contentsOf hcontents he
  · rw [Loader.formatError?_of_mem_diagnose hfound] at he
    cases he
  · exact Loader.isGenuine_of_diagnose he

/-! ## Nothing faults -/

namespace Faulting

/-- The readers, a loader and an inspection give on `b` the answers of the plain ones: no
index, range, copy, sum or product on the way is out of range.  Chunks can be looked for
anywhere, and any part can be read as a program. -/
structure Answers (input : String) (b : Bytes) (loader : Loader) : Prop where
  parse : ∃ answer, settle (parse b) = .ok answer ∧ answer.map File.container = Container.parse b
  chunkAt : ∀ bytes index offset, settle (chunkAt bytes index offset) =
    .ok ((ChunkExtent.locate bytes index offset).map fun x => x.read bytes)
  chunks : ∀ f, Faulting.parse b = .ok f → chunks f = .ok f.container.chunks
  structuralMd5 : ∀ f, Faulting.parse b = .ok f →
    structuralMd5 f = .ok f.container.structuralMd5
  program : ∀ part, settle (parseProgram part) = .ok (Program.parse part)
  tryLoad : tryLoad loader b = .ok (loader.tryLoad b)
  inspect : inspect input b loader = .ok (ShaderIntake.inspect input b loader)

/-- No error that is given on `b` is a defensive one, or reads like one. -/
structure GivesGenuineErrors (input : String) (b : Bytes) (loader : Loader) : Prop where
  parse : ∀ e, Container.parse b = .error e → e.IsGenuine
  locate : ∀ bytes index (offset : UInt32) e,
    ChunkExtent.locate bytes index offset.toNat = .error e → e.IsGenuine
  program : ∀ part e, Program.parse part = .error e → e.IsGenuine
  tryLoad : ∀ r e, (loader.tryLoad b).value = .error r → r.formatError? = some e → e.IsGenuine
  inspect : ∀ event ∈ (ShaderIntake.inspect input b loader).events, ∀ e,
    event.formatError? = some e → e.IsGenuine

/-- Whatever the bytes and whatever the loader, nothing faults and no error is one that
guards what cannot happen. -/
theorem inspect_never_faults (input : String) (b : Bytes) (loader : Loader) :
    Answers input b loader ∧ GivesGenuineErrors input b loader := by
  constructor
  · constructor
    case parse =>
      obtain ⟨f, hf, hc⟩ | ⟨e, hf, hc⟩ := parse_cases b
      · exact ⟨.ok f, by rw [hf]; rfl, hc.symm⟩
      · exact ⟨.error e, by rw [hf]; rfl, hc.symm⟩
    case chunkAt =>
      intro bytes index offset
      rw [chunkAt_eq_refuse, settle_refuse]
      cases ChunkExtent.locate bytes index offset <;> rfl
    case chunks => exact fun f _ => chunks_eq_ok f
    case structuralMd5 => exact fun f hf => structuralMd5_eq_ok hf
    case program =>
      intro part
      rw [parseProgram_eq_refuse, settle_refuse]
    case tryLoad => exact tryLoad_eq_ok loader b
    case inspect => exact inspect_eq_ok input b loader
  · constructor
    case parse => exact fun e => Container.isGenuine_of_parse
    case locate =>
      intro bytes index offset e he
      exact FormatError.isGenuine_of_not_isDefensive (Container.not_isDefensive_of_locate he)
    case program => exact fun part e => Program.isGenuine_of_parse
    case tryLoad =>
      intro r e hr he
      rw [← Except.error.inj hr] at he
      exact Loader.isGenuine_of_diagnose he
    case inspect => exact fun event hevent e => isGenuine_of_inspect hevent

end Faulting

end ShaderIntake
