import ShaderIntake.Inspection
import ShaderIntake.Proofs.Json.Pretty

/-!
# Reports read back from JSON

The JSON form of a report can be read back: it is one JSON text, and its value has every
field of the report but the summary (`ofValue?_json`), whatever stands in the texts.  So two
runs print the same JSON exactly if their reports are the same up to the summary
(`prints_same_json_iff`).

`ofValue?` reads by the names of the members, in any order, and numbers by what they stand
for; it does not know how documents are written.
-/

namespace ShaderIntake

/-! ## Reading values -/

namespace JsonValue

variable {α : Type}

def text? : JsonValue → Option String
  | text s => some s
  | _ => none

def bool? : JsonValue → Option Bool
  | bool b => some b
  | _ => none

/-- A natural number. -/
def nat? : JsonValue → Option Nat
  | number q => if q.den = 1 ∧ 0 ≤ q.num then some q.num.toNat else none
  | _ => none

/-- A list of values of one kind. -/
def list? (read : JsonValue → Option α) : JsonValue → Option (List α)
  | list items => items.mapM read
  | _ => none

/-- A value that may be absent. -/
def orNull? (read : JsonValue → Option α) : JsonValue → Option (Option α)
  | null => some none
  | x => (read x).map some

/-- The member with a name, when there is exactly one. -/
def member? (x : JsonValue) (read : JsonValue → Option α) (name : String) : Option α :=
  match x with
  | object members =>
    match members.filter fun m => m.1 = name with
    | [m] => read m.2
    | _ => none
  | _ => none

theorem nat?_number (n : Nat) : nat? (number n) = some n := by
  simp [nat?]

theorem list?_map {read : JsonValue → Option α} {write : α → JsonValue}
    (h : ∀ x, read (write x) = some x) (xs : List α) :
    list? read (list (xs.map write)) = some xs := by
  rw [list?]
  induction xs with
  | nil => rfl
  | cons x xs ih => simp [List.mapM_cons, h, ih]

end JsonValue

namespace Report

open JsonValue

def chunkOfValue? (x : JsonValue) : Option ChunkReport := do
  let fourcc ← x.member? text? "fourcc"
  let sizeBytes ← x.member? nat? "sizeBytes"
  return ⟨fourcc, sizeBytes⟩

def containerOfValue? (x : JsonValue) : Option ContainerReport := do
  let totalSize ← x.member? nat? "totalSize"
  let chunks ← x.member? (list? chunkOfValue?) "chunks"
  return ⟨totalSize, "", chunks⟩

def programOfValue? (x : JsonValue) : Option ProgramReport := do
  let part ← x.member? text? "part"
  let stage ← x.member? text? "stage"
  let shaderModel ← x.member? text? "shaderModel"
  let dxilVersion ← x.member? text? "dxilVersion"
  let bitcodeBytes ← x.member? nat? "bitcodeBytes"
  return ⟨part, stage, shaderModel, dxilVersion, bitcodeBytes⟩

/-- The report with a value, without the summary. -/
def ofValue? (x : JsonValue) : Option Report := do
  let input ← x.member? text? "input"
  let sizeBytes ← x.member? nat? "sizeBytes"
  let container ← x.member? (orNull? containerOfValue?) "container"
  let program ← x.member? (orNull? programOfValue?) "program"
  let loaded ← x.member? bool? "loaded"
  let diagnosis ← x.member? (orNull? text?) "diagnosis"
  return ⟨input, sizeBytes, container, program, loaded, diagnosis⟩

/-- The report without what only its text form has. -/
def withoutSummary (r : Report) : Report :=
  { r with container := r.container.map fun c => { c with summary := "" } }

theorem chunkOfValue?_json (x : ChunkReport) : chunkOfValue? (chunkJson x).value = some x := by
  simp [chunkOfValue?, chunkJson, Json.value, Json.memberValues, member?, text?, nat?_number]

theorem containerOfValue?_json (c : ContainerReport) :
    containerOfValue? (containerJson c).value = some { c with summary := "" } := by
  have hchunks : list? chunkOfValue? (.list (Json.values (c.chunks.map chunkJson))) =
      some c.chunks := by
    rw [Json.values_eq_map, List.map_map]
    exact list?_map chunkOfValue?_json c.chunks
  simp [containerOfValue?, containerJson, Json.value, Json.memberValues, member?, nat?_number,
    hchunks]

theorem programOfValue?_json (p : ProgramReport) :
    programOfValue? (programJson p).value = some p := by
  simp [programOfValue?, programJson, Json.value, Json.memberValues, member?, text?, nat?_number]

theorem text?_text (s : String) : text? (Json.text s).value = some s := rfl

theorem orNull?_json {α : Type} {json : α → Json} {read : JsonValue → Option α} {f : α → α}
    (hread : ∀ a, read (json a).value = some (f a)) (hjson : ∀ a, (json a).value ≠ .null)
    (o : Option α) : JsonValue.orNull? read (orNull json o).value = some (o.map f) := by
  cases o with
  | none => rfl
  | some a =>
    rw [orNull, JsonValue.orNull?, hread, Option.map_some, Option.map_some]
    exact hjson a

/-- A report is read back from its JSON form, all but the summary. -/
theorem ofValue?_json (r : Report) : ofValue? r.json.value = some r.withoutSummary := by
  have hcontainer := orNull?_json containerOfValue?_json
    (fun c => by simp [containerJson, Json.value]) r.container
  have hprogram : JsonValue.orNull? programOfValue? (orNull programJson r.program).value =
      some (r.program.map id) :=
    orNull?_json programOfValue?_json (fun p => by simp [programJson, Json.value]) r.program
  have hdiagnosis : JsonValue.orNull? text? (orNull Json.text r.diagnosis).value =
      some (r.diagnosis.map id) :=
    orNull?_json text?_text (fun s => by simp [Json.value]) r.diagnosis
  rw [Option.map_id_apply] at hprogram hdiagnosis
  simp [ofValue?, json, Json.value, Json.memberValues, member?, text?, bool?, nat?_number,
    hcontainer, hprogram, hdiagnosis, withoutSummary]

/-- The summary is not in the JSON form. -/
theorem json_withoutSummary (r : Report) : r.withoutSummary.json = r.json := by
  obtain ⟨_, _, container, _, _, _⟩ := r
  cases container <;> rfl

/-- The JSON text of a report is that of any report with the same fields, and no other. -/
theorem pretty_json_inj {r r' : Report} :
    r.json.pretty = r'.json.pretty ↔ r.withoutSummary = r'.withoutSummary := by
  constructor
  · intro h
    apply Option.some.inj
    rw [← ofValue?_json, Json.value_eq_of_pretty_eq h, ofValue?_json]
  · intro h
    rw [← json_withoutSummary, h, json_withoutSummary]

end Report

/-! ## Runs -/

namespace Inspection

/-- What the output of an inspection depends on, when the file can be read. -/
structure Run where
  input : String
  contents : Bytes
  loader : Loader

namespace Run

def report (run : Run) : Report :=
  (inspect run.input run.contents run.loader).value

/-- The arguments that ask for the report, as JSON or as lines of text. -/
def args (run : Run) (json : Bool) : Args :=
  ⟨run.input, run.loader.maxBlobBytes, run.loader.structuralMd5, json⟩

/-- The text is what the run prints, with these contents of the file. -/
def Prints (run : Run) (json : Bool) (text : String) : Prop :=
  ∃ events, inspectFile (fun _ => .ok run.contents) (run.args json) = .printed text events

variable {run run' : Run} {text : String}

theorem prints_iff {json : Bool} :
    run.Prints json text ↔ text = render (run.args json) run.report := by
  constructor
  · intro h
    obtain ⟨events, h⟩ := h
    exact (Outcome.printed.inj h).1.symm
  · intro h
    rw [h]
    exact ⟨_, rfl⟩

theorem prints_json_iff : run.Prints true text ↔ text = run.report.json.pretty ++ "\n" :=
  prints_iff

theorem prints_text_iff : run.Prints false text ↔ text = run.report.text :=
  prints_iff

/-- Two runs print the same JSON exactly if their reports are the same up to the summary. -/
theorem prints_same_json_iff :
    (∃ text, run.Prints true text ∧ run'.Prints true text) ↔
      run.report.withoutSummary = run'.report.withoutSummary := by
  simp only [prints_json_iff]
  rw [← Report.pretty_json_inj]
  constructor
  · intro h
    obtain ⟨text, htext, htext'⟩ := h
    exact (String.append_left_inj "\n").1 (htext.symm.trans htext')
  · intro h
    exact ⟨_, rfl, by rw [h]⟩

end Run

/-- The JSON output of a run is one JSON text and a line break.  It has one reading, and
this gives every field of the report back but the summary, which is not in it.  So two runs
have the same JSON output exactly if these fields are the same. -/
theorem json_output_is_lossless :
    (∀ run : Run, ∃ document value, run.Prints true (document ++ "\n") ∧
      Json.Spells (.value value) document.toList [] ∧
      (∀ v, Json.IsDocument (document ++ "\n") v ↔ v = value) ∧
      Report.ofValue? value = some run.report.withoutSummary) ∧
    ∀ run run' : Run, (∃ text, run.Prints true text ∧ run'.Prints true text) ↔
      run.report.withoutSummary = run'.report.withoutSummary := by
  constructor
  · intro run
    have hprints : run.Prints true (run.report.json.pretty ++ "\n") := Run.prints_json_iff.2 rfl
    have hblank : ∀ c ∈ "\n".toList, Json.IsBlank c := by simp [Json.IsBlank]
    exact ⟨run.report.json.pretty, run.report.json.value, hprints, Json.spells_pretty _,
      fun v => Json.isDocument_pretty_append hblank, Report.ofValue?_json run.report⟩
  · intro run run'
    exact Run.prints_same_json_iff

end Inspection

end ShaderIntake
