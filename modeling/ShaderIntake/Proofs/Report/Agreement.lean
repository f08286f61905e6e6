import ShaderIntake.Proofs.Loader.Diagnosis
import ShaderIntake.Proofs.Loader.Message
import ShaderIntake.Report

/-!
# Reports and diagnoses

An inspection reads a blob twice: once for the sections of its report, and once more
through the loader, for the diagnosis.  The loader has a limit and may ask for the
checksum, the sections know of neither.  Where neither of the two decides, both readings
come to the same end, and the report tells one story (`TellsOneStory`).

`Agrees` lists the ends, one rule for each, with what either reading finds there;
`agrees_of_admits` and `agrees_of_error` say that there are no others.  What the texts of
a report say follows from it, because every text shows what it is the text of.
-/

namespace ShaderIntake

/-- The texts that are logged on the way to a value, in order. -/
def Logged.messages {α : Type} (l : Logged α) : List String :=
  l.events.map Event.message

namespace Report

/-- The sections of a report, its diagnosis and what is logged fit together.  The texts
are the ones that a reader of the report and of the log sees. -/
structure TellsOneStory (r : Report) (log : List String) : Prop where
  noContainer_iff : r.container = none ↔ ∃ text, r.diagnosis = some ("dxbc error: " ++ text)
  noContainer_logged : ∀ text, r.diagnosis = some ("dxbc error: " ++ text) ↔
    "not a DXBC container: " ++ text ∈ log
  program_iff : (∃ p, r.program = some p) ↔ ∃ stage model, r.diagnosis =
    some ("lowering " ++ stage ++ " shader model " ++ model ++ " DXIL to AIR is not implemented")
  program_diagnosis : ∀ p, r.program = some p → r.diagnosis =
    some ("lowering " ++ p.stage ++ " shader model " ++ p.shaderModel
      ++ " DXIL to AIR is not implemented")
  noProgram_iff : r.container ≠ none ∧ r.program = none ↔
    (∃ code : FourCC, r.diagnosis =
        some ("DXBC container holds " ++ code.text ++ " SM4/SM5 bytecode, not DXIL")) ∨
      r.diagnosis = some "DXBC container has no DXIL part (expected DXIL or ILDB)" ∨
      ∃ text, r.diagnosis = some ("malformed DXIL program: " ++ text)
  badProgram_logged : ∀ text, r.diagnosis = some ("malformed DXIL program: " ++ text) ↔
    "DXIL program header: " ++ text ∈ log

/-! ## What both readings find -/

/-- What is read for the sections, and what is read for the diagnosis. -/
inductive Agrees : Logged (Option ContainerReport × Option ProgramReport) → Logged Refusal →
    Prop where
  | notContainer (e : FormatError) :
      Agrees ⟨(none, none), [.notContainer e]⟩ ⟨.container e, []⟩
  | tokenStream (container : ContainerReport) (code : FourCC) :
      Agrees ⟨(some container, none), []⟩ ⟨.tokenStream code, []⟩
  | missingProgram (container : ContainerReport) :
      Agrees ⟨(some container, none), []⟩ ⟨.missingProgram, []⟩
  | badProgram (container : ContainerReport) (e : FormatError) :
      Agrees ⟨(some container, none), [.badProgram e]⟩ ⟨.program e, []⟩
  | program (container : ContainerReport) (part : FourCC) (p : Program) :
      Agrees ⟨(some container, some (ofProgram part p)), []⟩
        ⟨.unsupported p.version, [.programFound p.version p.bitcode.size]⟩

section Readings

variable {b : Bytes} {loader : Loader}

theorem contentsOf_of_error {e : FormatError} (h : Container.parse b = .error e) :
    contentsOf b = ⟨(none, none), [.notContainer e]⟩ := by
  rw [contentsOf, h]

theorem contentsOf_of_ok {c : Container} (h : Container.parse b = .ok c) :
    contentsOf b = ⟨(some (ofContainer c), (programOf c).value), (programOf c).events⟩ := by
  rw [contentsOf, h]

theorem programOf_of_none {c : Container} (h : c.programPart? = none) :
    programOf c = ⟨none, []⟩ := by
  rw [programOf, h]

theorem programOf_of_ok {c : Container} {x : Chunk} {p : Program} (h : c.programPart? = some x)
    (hparse : Program.parse x.data = .ok p) :
    programOf c = ⟨some (ofProgram x.fourcc p), []⟩ := by
  rw [programOf, h]
  simp only [hparse]

theorem programOf_of_error {c : Container} {x : Chunk} {e : FormatError}
    (h : c.programPart? = some x) (hparse : Program.parse x.data = .error e) :
    programOf c = ⟨none, [.badProgram e]⟩ := by
  rw [programOf, h]
  simp only [hparse]

theorem agrees_of_error {e : FormatError} (hfits : Loader.Fits loader b)
    (h : Container.parse b = .error e) : Agrees (contentsOf b) (loader.diagnose b) := by
  rw [contentsOf_of_error h, Loader.diagnose, Loader.diagnoseWith_of_error hfits h]
  exact .notContainer e

/-- Both readings choose the same part, and read it in the same way. -/
theorem agrees_of_admits (h : Loader.Admits loader b) :
    Agrees (contentsOf b) (loader.diagnose b) := by
  rw [contentsOf_of_ok h.wellFormed.parse_eq_ok, Loader.diagnose_of_admits h]
  cases hpart : (Container.declared b).programPart? with
  | some x =>
    rw [Loader.diagnoseContainer_of_some hpart]
    cases hparse : Program.parse x.data with
    | ok p =>
      rw [programOf_of_ok hpart hparse, Loader.diagnosePart, hparse]
      exact .program _ _ p
    | error e =>
      rw [programOf_of_error hpart hparse, Loader.diagnosePart_of_error hparse]
      exact .badProgram _ e
  | none =>
    rw [programOf_of_none hpart]
    cases hstream : (Container.declared b).tokenStream? with
    | some x =>
      rw [Loader.diagnoseContainer_of_tokenStream hpart hstream]
      exact .tokenStream _ x.fourcc
    | none =>
      rw [Loader.diagnoseContainer_of_none hpart hstream]
      exact .missingProgram _

/-- Neither the limit nor the checksum decides. -/
theorem agrees_of_fits (hfits : Loader.Fits loader b)
    (hchecksum : loader.structuralMd5 = false ∨ (∃ e, Container.parse b = .error e) ∨
      ∃ c, Container.parse b = .ok c ∧ c.checksumMatches = true) :
    Agrees (contentsOf b) (loader.diagnose b) := by
  cases hparse : Container.parse b with
  | error e => exact agrees_of_error hfits hparse
  | ok c =>
    have hb := Container.wellFormed_of_parse hparse
    obtain rfl := Container.eq_declared_of_parse hparse
    refine agrees_of_admits ⟨hfits, hb, ?_⟩
    intro hon
    rw [← Container.checksumMatches_declared hb]
    obtain hoff | ⟨e, he⟩ | ⟨c, hc, hmatches⟩ := hchecksum
    · rw [hon] at hoff
      cases hoff
    · rw [hparse] at he
      cases he
    · rw [← Container.eq_declared_of_parse hc]
      exact hmatches

theorem program_isSome_iff (b : Bytes) :
    (contentsOf b).value.2.isSome ↔ ∃ c x p, Container.parse b = .ok c ∧
      c.programPart? = some x ∧ Program.parse x.data = .ok p := by
  cases hparse : Container.parse b with
  | error e => simp [contentsOf_of_error hparse]
  | ok c =>
    rw [contentsOf_of_ok hparse]
    cases hpart : c.programPart? with
    | none => simp [programOf_of_none hpart, hpart]
    | some x =>
      cases hprogram : Program.parse x.data with
      | error e => simp [programOf_of_error hpart hprogram, hpart, hprogram]
      | ok p => simp [programOf_of_ok hpart hprogram, hpart, hprogram]

theorem container_isSome_iff (b : Bytes) :
    (contentsOf b).value.1.isSome ↔ ∃ c, Container.parse b = .ok c := by
  cases hparse : Container.parse b with
  | error e => simp [contentsOf_of_error hparse]
  | ok c => simp [contentsOf_of_ok hparse]

end Readings

/-! ## What the texts say -/

section Texts

variable {contents : Logged (Option ContainerReport × Option ProgramReport)}
  {refusal : Logged Refusal} (h : Agrees contents refusal)

include h

theorem Agrees.noContainer_iff :
    contents.value.1 = none ↔ ∃ e, refusal.value = .container e := by
  cases h <;> simp

theorem Agrees.program_iff :
    (∃ p, contents.value.2 = some p) ↔ ∃ version, refusal.value = .unsupported version := by
  cases h <;> simp

theorem Agrees.noProgram_iff :
    contents.value.1 ≠ none ∧ contents.value.2 = none ↔
      (∃ code, refusal.value = .tokenStream code) ∨ refusal.value = .missingProgram ∨
        ∃ e, refusal.value = .program e := by
  cases h <;> simp

theorem Agrees.program_eq {p : ProgramReport} (hp : contents.value.2 = some p) :
    ∃ version, refusal.value = .unsupported version ∧ p.stage = version.stage.text ∧
      p.shaderModel = version.model.text := by
  cases h with
  | program _ _ program =>
    cases hp
    exact ⟨program.version, rfl, rfl, rfl⟩
  | _ => cases hp

/-- An error of the container is logged exactly if it is the reason to refuse the blob. -/
theorem Agrees.notContainer_mem_iff (e : FormatError) (size : Nat) :
    .notContainer e ∈ contents.events ++ (refusal.events ++ [.loadRefused refusal.value size]) ↔
      refusal.value = .container e := by
  cases h <;> simp [eq_comm]

/-- And so is an error of the program. -/
theorem Agrees.badProgram_mem_iff (e : FormatError) (size : Nat) :
    .badProgram e ∈ contents.events ++ (refusal.events ++ [.loadRefused refusal.value size]) ↔
      refusal.value = .program e := by
  cases h <;> simp [eq_comm]

end Texts

/-- Where the two readings agree, the report tells one story. -/
theorem tellsOneStory_of_agrees {input : String} {b : Bytes} {loader : Loader}
    (h : Agrees (contentsOf b) (loader.diagnose b)) :
    TellsOneStory (inspect input b loader).value (inspect input b loader).messages := by
  have hcontainer : (inspect input b loader).value.container = (contentsOf b).value.1 := rfl
  have hprogram : (inspect input b loader).value.program = (contentsOf b).value.2 := rfl
  have hdiagnosis : (inspect input b loader).value.diagnosis =
      some (loader.diagnose b).value.message := rfl
  have hlog : (inspect input b loader).messages = List.map Event.message ((contentsOf b).events
      ++ ((loader.diagnose b).events ++ [.loadRefused (loader.diagnose b).value b.size])) := rfl
  constructor
  case noContainer_iff =>
    simp only [hcontainer, hdiagnosis, Option.some.injEq, h.noContainer_iff,
      Refusal.exists_message_eq_container_iff]
  case noContainer_logged =>
    intro text
    simp only [hdiagnosis, hlog, Option.some.injEq, Refusal.message_eq_container_iff,
      Event.notContainer_mem_messages_iff, h.notContainer_mem_iff]
  case program_iff =>
    simp only [hprogram, hdiagnosis, Option.some.injEq, h.program_iff,
      Refusal.exists_message_eq_unsupported_iff]
  case program_diagnosis =>
    intro p hp
    rw [hprogram] at hp
    obtain ⟨version, hversion, hstage, hmodel⟩ := h.program_eq hp
    rw [hdiagnosis, hversion, hstage, hmodel, Refusal.message_unsupported]
  case noProgram_iff =>
    simp only [hcontainer, hprogram, hdiagnosis, Option.some.injEq, h.noProgram_iff,
      Refusal.exists_message_eq_tokenStream_iff, Refusal.message_eq_missingProgram_iff,
      Refusal.exists_message_eq_program_iff]
  case badProgram_logged =>
    intro text
    simp only [hdiagnosis, hlog, Option.some.injEq, Refusal.message_eq_program_iff,
      Event.badProgram_mem_messages_iff, h.badProgram_mem_iff]

/-- The sections of a report say what the blob is, for every loader; nothing is loaded,
and the diagnosis is the loader's text.  Where neither the limit nor the checksum decides,
the sections, the diagnosis and the log tell one story. -/
theorem inspect_agrees_with_loader (input : String) (b : Bytes) (loader : Loader) :
    ((inspect input b loader).value.container.isSome ↔ ∃ c, Container.parse b = .ok c) ∧
      ((inspect input b loader).value.program.isSome ↔ ∃ c x p, Container.parse b = .ok c ∧
        c.programPart? = some x ∧ Program.parse x.data = .ok p) ∧
      (∀ loader', (inspect input b loader').value.container =
          (inspect input b loader).value.container ∧
        (inspect input b loader').value.program = (inspect input b loader).value.program) ∧
      (inspect input b loader).value.loaded = false ∧
      (∃ r, (loader.tryLoad b).value = .error r ∧
        (inspect input b loader).value.diagnosis = some r.message) ∧
      (b.size ≠ 0 → b.size ≤ loader.maxBlobBytes →
        (loader.structuralMd5 = false ∨ (∃ e, Container.parse b = .error e) ∨
          ∃ c, Container.parse b = .ok c ∧ c.checksumMatches = true) →
        TellsOneStory (inspect input b loader).value (inspect input b loader).messages) := by
  refine ⟨container_isSome_iff b, program_isSome_iff b, fun _ => ⟨rfl, rfl⟩, rfl,
    ⟨(loader.diagnose b).value, rfl, rfl⟩, ?_⟩
  intro hnonempty hmax hchecksum
  exact tellsOneStory_of_agrees (agrees_of_fits ⟨hnonempty, hmax⟩ hchecksum)

end Report

end ShaderIntake
