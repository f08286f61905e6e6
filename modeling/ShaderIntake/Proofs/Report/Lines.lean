import ShaderIntake.Proofs.Container.Summary
import ShaderIntake.Proofs.Loader.Printable
import ShaderIntake.Proofs.Report.Agreement
import ShaderIntake.Proofs.Report.Lossless

/-!
# The lines of a report

Nothing that a blob holds gets into an output as a control character
(`outputs_are_printable`).  So the text form of a report has the lines that it is made of: one
about the file, those of the summary or one that there is no container, one about the program
if there is one, and one about the load (`lines_text_inspect`).
-/

namespace ShaderIntake

open Text

namespace Report

/-! ## The lines -/

def inputLine (input : String) (sizeBytes : Nat) : String :=
  "input: " ++ input ++ " (" ++ toString sizeBytes ++ " bytes)"

/-- The lines about the container that was found, or that there is none. -/
def containerLines : Option Container → List String
  | none => ["container: none"]
  | some c => Container.summaryHead c.header :: Container.listings c.extents

def programLine (p : ProgramReport) : String :=
  "program: " ++ p.part ++ " " ++ p.stage ++ " sm" ++ p.shaderModel ++ " dxil" ++ p.dxilVersion
    ++ " (" ++ toString p.bitcodeBytes ++ " bitcode bytes)"

def loadLine (r : Refusal) : String :=
  "load: failed: " ++ r.message

/-- The lines before the one about the load. -/
def frontLines (input : String) (b : Bytes) : List String :=
  inputLine input b.size :: (containerLines (Container.parse b).toOption
    ++ (contentsOf b).value.2.toList.map programLine)

/-- The lines of the report on a blob. -/
def textLines (input : String) (b : Bytes) (loader : Loader) : List String :=
  frontLines input b ++ [loadLine (loader.diagnose b).value]

theorem inputLine_append_break (input : String) (sizeBytes : Nat) :
    inputLine input sizeBytes ++ "\n" =
      "input: " ++ input ++ " (" ++ toString sizeBytes ++ " bytes)\n" := by
  rw [inputLine, String.append_assoc]
  rfl

theorem programLine_append_break (p : ProgramReport) :
    programLine p ++ "\n" = "program: " ++ p.part ++ " " ++ p.stage ++ " sm" ++ p.shaderModel
      ++ " dxil" ++ p.dxilVersion ++ " (" ++ toString p.bitcodeBytes ++ " bitcode bytes)\n" := by
  have hend : " bitcode bytes)" ++ "\n" = " bitcode bytes)\n" := by decide
  rw [← hend, ← String.append_assoc]
  rfl

/-- The text form, line by line. -/
theorem text_eq {r : Report} {reason : String} (h : r.diagnosis = some reason) :
    r.text = inputLine r.input r.sizeBytes ++ "\n"
      ++ r.container.elim "container: none\n" (fun c => c.summary ++ "\n")
      ++ r.program.elim "" (fun p => programLine p ++ "\n")
      ++ ("load: failed: " ++ reason ++ "\n") := by
  obtain ⟨input, sizeBytes, container, program, loaded, diagnosis⟩ := r
  subst h
  simp only [programLine_append_break, inputLine_append_break]
  cases container <;> cases program <;> rfl

theorem join_containerLines (o : Option Container) :
    String.join ((containerLines o).map (· ++ "\n")) =
      (o.map ofContainer).elim "container: none\n" fun c => c.summary ++ "\n" := by
  cases o with
  | none => rfl
  | some c =>
    rw [containerLines, ← join_breaks_before_append, ← Container.summary_eq]
    rfl

theorem join_programLines (o : Option ProgramReport) :
    String.join ((o.toList.map programLine).map (· ++ "\n")) =
      o.elim "" fun p => programLine p ++ "\n" := by
  cases o with
  | none => rfl
  | some p =>
    rw [Option.toList_some, List.map_singleton, List.map_singleton, String.join_cons,
      String.join_nil, String.append_empty]
    rfl

theorem contentsOf_container (b : Bytes) :
    (contentsOf b).value.1 = (Container.parse b).toOption.map ofContainer := by
  cases hparse : Container.parse b with
  | error e =>
    rw [contentsOf_of_error hparse]
    rfl
  | ok c =>
    rw [contentsOf_of_ok hparse]
    rfl

theorem text_inspect (input : String) (b : Bytes) (loader : Loader) :
    (inspect input b loader).value.text =
      String.join ((textLines input b loader).map (· ++ "\n")) := by
  have htext : (inspect input b loader).value.text = inputLine input b.size ++ "\n"
      ++ (contentsOf b).value.1.elim "container: none\n" (fun c => c.summary ++ "\n")
      ++ (contentsOf b).value.2.elim "" (fun p => programLine p ++ "\n")
      ++ ("load: failed: " ++ (loader.diagnose b).value.message ++ "\n") :=
    text_eq rfl
  rw [htext, contentsOf_container, ← join_containerLines, ← join_programLines]
  simp only [textLines, frontLines, loadLine, List.map_cons, List.map_append, List.map_nil,
    String.join_cons, String.join_append, String.join_nil, String.append_empty,
    String.append_assoc]

/-! ## No line is broken -/

theorem printable_containerLines (o : Option Container) :
    ∀ line ∈ containerLines o, Printable line := by
  cases o with
  | none =>
    rw [containerLines, List.forall_mem_singleton]
    decide
  | some c =>
    rw [containerLines, List.forall_mem_cons]
    refine ⟨Container.printable_summaryHead _, ?_⟩
    intro line hline
    obtain ⟨index, x, rfl⟩ := Container.of_mem_listings hline
    exact x.printable_listing index

theorem printable_programLine (part : FourCC) (p : Program) :
    Printable (programLine (ofProgram part p)) :=
  have hversion : Printable (ofProgram part p).dxilVersion :=
    .value (printable_number _) .words (printable_number _)
  .value (.value (.value (.value (.value .words part.printable_text .words)
    p.version.stage.printable_text .words) p.version.model.printable_text .words)
    hversion .words) (printable_number _) .words

/-- What is reported as a program was read from a part. -/
theorem exists_eq_ofProgram {b : Bytes} {r : ProgramReport} (h : (contentsOf b).value.2 = some r) :
    ∃ part p, r = ofProgram part p := by
  cases hparse : Container.parse b with
  | error e =>
    rw [contentsOf_of_error hparse] at h
    cases h
  | ok c =>
    rw [contentsOf_of_ok hparse] at h
    cases hpart : c.programPart? with
    | none =>
      rw [programOf_of_none hpart] at h
      cases h
    | some x =>
      cases hprogram : Program.parse x.data with
      | error e =>
        rw [programOf_of_error hpart hprogram] at h
        cases h
      | ok p =>
        rw [programOf_of_ok hpart hprogram] at h
        exact ⟨x.fourcc, p, (Option.some.inj h).symm⟩

/-- Only the first line has something that does not come from the blob. -/
theorem printable_tail_textLines (input : String) (b : Bytes) (loader : Loader) :
    ∀ line ∈ (textLines input b loader).tail, Printable line := by
  rw [textLines, frontLines, List.cons_append, List.tail_cons]
  refine List.forall_mem_append.2 ⟨List.forall_mem_append.2 ⟨?_, ?_⟩, ?_⟩
  · exact printable_containerLines _
  · intro line hline
    obtain ⟨r, hr, rfl⟩ := List.mem_map.1 hline
    obtain ⟨part, p, rfl⟩ := exists_eq_ofProgram (Option.mem_toList.1 hr)
    exact printable_programLine part p
  · rw [List.forall_mem_singleton]
    exact .append .words (loader.diagnose b).value.printable_message

theorem oneLine_inputLine {input : String} (h : OneLine input) (sizeBytes : Nat) :
    OneLine (inputLine input sizeBytes) :=
  have hwords (s : String) (hs : Printable s) : OneLine s := hs.oneLine
  .append (.append (.append (.append (hwords _ .words) h) (hwords _ .words))
    (printable_number _).oneLine) (hwords _ .words)

theorem lines_text_inspect {input : String} (h : OneLine input) (b : Bytes) (loader : Loader) :
    lines (inspect input b loader).value.text = textLines input b loader := by
  rw [text_inspect]
  apply lines_join_breaks_behind
  rw [textLines, frontLines, List.cons_append, List.forall_mem_cons]
  refine ⟨oneLine_inputLine h b.size, ?_⟩
  intro line hline
  exact (printable_tail_textLines input b loader line hline).oneLine

/-! ## Which line is which -/

/-- The words stand at the front of the text. -/
def BeginsWith (words s : String) : Prop :=
  words.toList <+: s.toList

instance (words s : String) : Decidable (BeginsWith words s) :=
  inferInstanceAs (Decidable (words.toList <+: s.toList))

theorem BeginsWith.append {words s t : String} (h : BeginsWith words s) :
    BeginsWith words (s ++ t) := by
  rw [BeginsWith, String.toList_append]
  exact h.trans (List.prefix_append _ _)

/-- Words at the front of one text, one of which go on where the others end. -/
theorem BeginsWith.comparable {v w s : String} (h : BeginsWith v s) (h' : BeginsWith w s) :
    BeginsWith v w ∨ BeginsWith w v :=
  List.prefix_or_prefix_of_prefix h h'

theorem beginsWith_inputLine (input : String) (sizeBytes : Nat) :
    BeginsWith "input: " (inputLine input sizeBytes) :=
  .append (.append (.append (.append List.prefix_rfl)))

theorem beginsWith_summaryHead (b : Bytes) :
    BeginsWith "DXBC" (Container.summaryHead (Container.declaredHeader b)) :=
  have hmagic : BeginsWith "DXBC" (Container.declaredHeader b).magic.text := by
    change BeginsWith "DXBC" FourCC.dxbc.text
    decide
  .append (.append (.append (.append hmagic)))

theorem beginsWith_listing (index : Nat) (x : ChunkExtent) : BeginsWith "  [" (x.listing index) :=
  .append (.append (.append (.append (.append (.append List.prefix_rfl)))))

theorem beginsWith_programLine (p : ProgramReport) : BeginsWith "program: " (programLine p) :=
  .append (.append (.append (.append (.append (.append (.append (.append (.append (.append
    List.prefix_rfl)))))))))

theorem beginsWith_loadLine (r : Refusal) : BeginsWith "load: failed: " (loadLine r) :=
  .append List.prefix_rfl

/-- What the lines about the file and the container begin with. -/
def headWords : List String :=
  ["input: ", "container: none", "DXBC", "  ["]

theorem beginsWith_of_mem_containerLines {b : Bytes} {line : String}
    (h : line ∈ containerLines (Container.parse b).toOption) :
    ∃ words ∈ headWords, BeginsWith words line := by
  cases hparse : Container.parse b with
  | error e =>
    rw [hparse] at h
    rw [List.mem_singleton.1 h]
    exact ⟨_, by simp [headWords], List.prefix_rfl⟩
  | ok c =>
    obtain rfl := Container.eq_declared_of_parse hparse
    rw [hparse] at h
    rcases List.mem_cons.1 h with rfl | h
    · exact ⟨_, by simp [headWords], beginsWith_summaryHead b⟩
    · obtain ⟨index, x, rfl⟩ := Container.of_mem_listings h
      exact ⟨_, by simp [headWords], beginsWith_listing index x⟩

section Front

variable {input : String} {b : Bytes} {line : String} (h : line ∈ frontLines input b)

include h

theorem beginsWith_of_mem_frontLines : (∃ words ∈ headWords, BeginsWith words line) ∨
    BeginsWith "program: " line ∧ (contentsOf b).value.2.isSome = true := by
  rw [frontLines, List.mem_cons, List.mem_append] at h
  rcases h with rfl | h | h
  · exact .inl ⟨_, by simp [headWords], beginsWith_inputLine input b.size⟩
  · exact .inl (beginsWith_of_mem_containerLines h)
  · obtain ⟨p, hp, rfl⟩ := List.mem_map.1 h
    exact .inr ⟨beginsWith_programLine p, Option.isSome_of_mem (Option.mem_toList.1 hp)⟩

theorem not_load_of_mem_frontLines : ¬BeginsWith "load: failed:" line := by
  intro hload
  have hwords : ∀ words ∈ "program: " :: headWords,
      ¬(BeginsWith words "load: failed:" ∨ BeginsWith "load: failed:" words) := by decide
  rcases beginsWith_of_mem_frontLines h with ⟨words, hmem, hline⟩ | ⟨hline, -⟩
  · exact hwords words (List.mem_cons_of_mem _ hmem) (hline.comparable hload)
  · exact hwords _ List.mem_cons_self (hline.comparable hload)

theorem isSome_of_mem_frontLines (hprogram : BeginsWith "program: " line) :
    (contentsOf b).value.2.isSome = true := by
  have hwords : ∀ words ∈ headWords,
      ¬(BeginsWith words "program: " ∨ BeginsWith "program: " words) := by decide
  rcases beginsWith_of_mem_frontLines h with ⟨words, hmem, hline⟩ | ⟨-, hsome⟩
  · exact absurd (hline.comparable hprogram) (hwords words hmem)
  · exact hsome

end Front

theorem exists_programLine_iff (input : String) (b : Bytes) (loader : Loader) :
    (∃ line ∈ textLines input b loader, BeginsWith "program: " line) ↔
      (contentsOf b).value.2.isSome = true := by
  rw [textLines]
  constructor
  · rintro ⟨line, hline, hprogram⟩
    rcases List.mem_append.1 hline with hline | hline
    · exact isSome_of_mem_frontLines hline hprogram
    · rw [List.mem_singleton.1 hline] at hprogram
      have hwords : ¬(BeginsWith "program: " "load: failed: " ∨
        BeginsWith "load: failed: " "program: ") := by decide
      exact absurd (hprogram.comparable (beginsWith_loadLine _)) hwords
  · intro h
    obtain ⟨p, hp⟩ := Option.isSome_iff_exists.1 h
    refine ⟨programLine p, ?_, beginsWith_programLine p⟩
    simp [frontLines, hp]

/-! ## How many lines there are -/

theorem length_textLines_of_error (input : String) {b : Bytes} (loader : Loader) {e : FormatError}
    (h : Container.parse b = .error e) : (textLines input b loader).length = 3 := by
  rw [textLines, frontLines, h, contentsOf_of_error h]
  rfl

/-- Two lines about the file and the load, and those of the summary. -/
theorem length_textLines_of_ok (input : String) {b : Bytes} (loader : Loader) {c : Container}
    (h : Container.parse b = .ok c) : (textLines input b loader).length =
      3 + c.header.chunkCount.toNat + if (contentsOf b).value.2.isSome then 1 else 0 := by
  have hb := Container.wellFormed_of_parse h
  have hprogram (o : Option ProgramReport) :
      (o.toList.map programLine).length = if o.isSome then 1 else 0 := by
    cases o <;> rfl
  obtain rfl := Container.eq_declared_of_parse h
  have hcontainer : (containerLines (some (Container.declared b))).length =
      1 + (Container.declared b).header.chunkCount.toNat := by
    rw [← hb.length_lines_summary, Container.lines_summary, containerLines]
  rw [textLines, frontLines, h, List.length_append, List.length_cons, List.length_append,
    hprogram, List.length_singleton]
  change (containerLines (some _)).length + _ + 1 + 1 = _
  rw [hcontainer]
  omega

end Report

namespace Inspection

open Report (BeginsWith inputLine)

/-- How the text that a run prints is made of lines. -/
structure TextForm (run : Run) (text : String) : Prop where
  noContainer : ∀ e, Container.parse run.contents = .error e → (lines text).length = 3
  container : ∀ c, Container.parse run.contents = .ok c → (lines text).length =
    3 + c.header.chunkCount.toNat + if run.report.program.isSome then 1 else 0
  program_iff : (∃ line ∈ lines text, BeginsWith "program: " line) ↔
    run.report.program.isSome = true
  head : (lines text).head? = some (inputLine run.input run.contents.size)
  printable_tail : ∀ line ∈ (lines text).tail, Printable line
  last : ∃ front r, lines text = front ++ ["load: failed: " ++ r.message] ∧
    (run.loader.tryLoad run.contents).value = .error r ∧
    ∀ line ∈ front, ¬BeginsWith "load: failed:" line

theorem Run.textForm (run : Run) (h : OneLine run.input) : TextForm run run.report.text := by
  have hlines : lines run.report.text = Report.textLines run.input run.contents run.loader :=
    Report.lines_text_inspect h run.contents run.loader
  constructor
  case noContainer =>
    intro e he
    rw [hlines, Report.length_textLines_of_error _ _ he]
  case container =>
    intro c hc
    rw [hlines, Report.length_textLines_of_ok _ _ hc]
    rfl
  case program_iff =>
    rw [hlines, Report.exists_programLine_iff]
    rfl
  case head =>
    rw [hlines]
    rfl
  case printable_tail =>
    rw [hlines]
    exact Report.printable_tail_textLines _ _ _
  case last =>
    refine ⟨Report.frontLines run.input run.contents, (run.loader.diagnose run.contents).value,
      ?_, rfl, fun line hline => Report.not_load_of_mem_frontLines hline⟩
    rw [hlines, Report.textLines, Report.loadLine]

/-- Whatever a blob holds, no output has it as a control character: the texts of errors,
refusals, stages, models and codes, and what is logged, are printable, and a summary has the
line breaks between its lines besides.  So the text of a run has the lines that it is made of,
if the path to the file has no line break. -/
theorem outputs_are_printable :
    (∀ e : FormatError, Printable e.message ∧ Printable e.context) ∧
    (∀ r : Refusal, Printable r.message) ∧
    (∀ event : Event, Printable event.message ∧
      ∀ field ∈ event.fields, Printable field.1 ∧ Printable field.2) ∧
    (∀ version : ProgramVersion, Printable version.stage.text ∧ Printable version.model.text) ∧
    (∀ code : FourCC, Printable code.text) ∧
    (∀ b c, Container.parse b = .ok c → (∀ ch ∈ c.summary.toList, IsPrintable ch ∨ ch = '\n') ∧
      c.summary.toList.count '\n' = c.header.chunkCount.toNat) ∧
    ∀ run : Run, OneLine run.input → ∃ text, run.Prints false text ∧ TextForm run text := by
  refine ⟨?_, ?_, ?_, ?_, ?_, ?_, ?_⟩
  · exact fun e => ⟨e.printable_message, e.printable_context⟩
  · exact Refusal.printable_message
  · exact fun event => ⟨event.printable_message, event.printable_fields⟩
  · exact fun version => ⟨version.stage.printable_text, version.model.printable_text⟩
  · exact FourCC.printable_text
  · intro b c hparse
    have hb := Container.wellFormed_of_parse hparse
    obtain rfl := Container.eq_declared_of_parse hparse
    exact ⟨fun ch => Container.isPrintable_of_mem_summary, hb.count_newline_summary⟩
  · intro run hinput
    exact ⟨run.report.text, Run.prints_text_iff.2 rfl, run.textForm hinput⟩

/-- A chunk whose code begins with a line break, in a file whose path has a tab. -/
theorem outputs_are_printable_lineBreak :
    ∃ c text, Container.parse (Container.emptyChunk ⟨0x0a, 0x20, 0x5b, 0x5c⟩) = .ok c ∧
      c.summary.toList.count '\n' = 1 ∧ OneLine "a\tb" ∧
      Run.Prints ⟨"a\tb", Container.emptyChunk ⟨0x0a, 0x20, 0x5b, 0x5c⟩, .standard⟩ false text ∧
      (lines text).length = 4 ∧ ∀ line ∈ (lines text).tail, Printable line := by
  have hparse := Container.emptyChunk_wellFormed_lineBreak.parse_eq_ok
  have hinput : OneLine "a\tb" := by simp [OneLine]
  obtain ⟨-, -, -, -, -, hsummary, hrun⟩ := outputs_are_printable
  obtain ⟨text, hprints, hform⟩ :=
    hrun ⟨"a\tb", Container.emptyChunk ⟨0x0a, 0x20, 0x5b, 0x5c⟩, .standard⟩ hinput
  refine ⟨_, text, hparse, (hsummary _ _ hparse).2, hinput, hprints, ?_, hform.printable_tail⟩
  have hprogram : (Run.report ⟨"a\tb", Container.emptyChunk ⟨0x0a, 0x20, 0x5b, 0x5c⟩,
      .standard⟩).program = none := by
    change (Report.contentsOf _).value.2 = none
    rw [Report.contentsOf_of_ok hparse]
    decide
  rw [hform.container _ hparse, hprogram]
  rfl

end Inspection

end ShaderIntake
