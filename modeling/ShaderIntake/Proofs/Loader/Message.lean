import ShaderIntake.Event

/-!
# Telling texts apart

The text of a refusal shows what kind of refusal it is, and the text of an event what
kind of event.  Every kind begins with words of its own (`Refusal.opening`), so a text
that begins with these words comes from that kind and no other
(`message_eq_container_iff` and the lemmas behind it).  What follows the words is then
the text of the error that the refusal or the event passes on.
-/

namespace ShaderIntake

namespace Refusal

/-! ## Refusals -/

@[simp] theorem message_empty : message .empty = "shader blob is empty" := rfl

@[simp] theorem message_tooLarge (size limit : Nat) : (tooLarge size limit).message =
    "shader blob length " ++ toString size ++ " exceeds maximum " ++ toString limit
      ++ " bytes" := rfl

@[simp] theorem message_container (e : FormatError) :
    (container e).message = "dxbc error: " ++ e.message := rfl

@[simp] theorem message_structuralMd5Mismatch : message .structuralMd5Mismatch =
    "DXBC checksum is not the structural MD5 of the container (checksum field zeroed)" := rfl

@[simp] theorem message_tokenStream (f : FourCC) : (tokenStream f).message =
    "DXBC container holds " ++ f.text ++ " SM4/SM5 bytecode, not DXIL" := rfl

@[simp] theorem message_missingProgram : message .missingProgram =
    "DXBC container has no DXIL part (expected DXIL or ILDB)" := rfl

@[simp] theorem message_program (e : FormatError) :
    (program e).message = "malformed DXIL program: " ++ e.message := rfl

@[simp] theorem message_unsupported (version : ProgramVersion) :
    (unsupported version).message =
      "lowering " ++ version.stage.text ++ " shader model " ++ version.model.text
        ++ " DXIL to AIR is not implemented" := by
  have hend : " DXIL to AIR " ++ "is not implemented" = " DXIL to AIR is not implemented" := by
    decide
  rw [← hend, ← String.append_assoc]
  rfl

/-- The words that the text of a refusal begins with.  None of them begin with others. -/
def opening : Refusal → String
  | empty => "shader blob is "
  | tooLarge .. => "shader blob length "
  | container _ => "dxbc error: "
  | structuralMd5Mismatch => "DXBC checksum "
  | tokenStream _ => "DXBC container holds "
  | missingProgram => "DXBC container has "
  | program _ => "malformed DXIL program: "
  | unsupported _ => "lowering "

theorem exists_message_eq (r : Refusal) : ∃ rest, r.message = r.opening ++ rest := by
  cases r with
  | empty => exact ⟨"empty", rfl⟩
  | tooLarge size limit =>
    refine ⟨toString size ++ " exceeds maximum " ++ toString limit ++ " bytes", ?_⟩
    rw [message_tooLarge, opening]
    simp only [String.append_assoc]
  | container e => exact ⟨e.message, rfl⟩
  | structuralMd5Mismatch =>
    exact ⟨"is not the structural MD5 of the container (checksum field zeroed)", rfl⟩
  | tokenStream f =>
    exact ⟨f.text ++ " SM4/SM5 bytecode, not DXIL", String.append_assoc ..⟩
  | missingProgram => exact ⟨"no DXIL part (expected DXIL or ILDB)", rfl⟩
  | program e => exact ⟨e.message, rfl⟩
  | unsupported version =>
    refine ⟨version.stage.text ++ " shader model " ++ version.model.text
      ++ " DXIL to AIR is not implemented", ?_⟩
    rw [message_unsupported, opening]
    simp only [String.append_assoc]

variable {r : Refusal} {text : String}

theorem message_eq_container_iff :
    r.message = "dxbc error: " ++ text ↔ ∃ e, r = .container e ∧ e.message = text := by
  obtain ⟨rest, hrest⟩ := r.exists_message_eq
  cases r with
  | container e => simp
  | _ => rw [hrest]; simp [opening, ← String.toList_inj]

theorem message_eq_program_iff :
    r.message = "malformed DXIL program: " ++ text ↔ ∃ e, r = .program e ∧ e.message = text := by
  obtain ⟨rest, hrest⟩ := r.exists_message_eq
  cases r with
  | program e => simp
  | _ => rw [hrest]; simp [opening, ← String.toList_inj]

theorem eq_unsupported_of_message (h : r.message = "lowering " ++ text) :
    ∃ version, r = .unsupported version := by
  obtain ⟨rest, hrest⟩ := r.exists_message_eq
  cases r with
  | unsupported version => exact ⟨version, rfl⟩
  | _ => rw [hrest] at h; simp [opening, ← String.toList_inj] at h

theorem eq_tokenStream_of_message (h : r.message = "DXBC container holds " ++ text) :
    ∃ code, r = .tokenStream code := by
  obtain ⟨rest, hrest⟩ := r.exists_message_eq
  cases r with
  | tokenStream code => exact ⟨code, rfl⟩
  | _ => rw [hrest] at h; simp [opening, ← String.toList_inj] at h

theorem eq_missingProgram_of_message (h : r.message = "DXBC container has " ++ text) :
    r = .missingProgram := by
  obtain ⟨rest, hrest⟩ := r.exists_message_eq
  cases r with
  | missingProgram => rfl
  | _ => rw [hrest] at h; simp [opening, ← String.toList_inj] at h

/-- Where a text shows the kind of a refusal and its error, the words alone show the kind. -/
theorem exists_text_iff {words : String} {kind : FormatError → Refusal}
    (h : ∀ text, r.message = words ++ text ↔ ∃ e, r = kind e ∧ e.message = text) :
    (∃ text, r.message = words ++ text) ↔ ∃ e, r = kind e := by
  constructor
  · rintro ⟨text, htext⟩
    obtain ⟨e, he, -⟩ := (h text).1 htext
    exact ⟨e, he⟩
  · rintro ⟨e, he⟩
    exact ⟨e.message, (h e.message).2 ⟨e, he, rfl⟩⟩

theorem exists_message_eq_container_iff :
    (∃ text, r.message = "dxbc error: " ++ text) ↔ ∃ e, r = .container e :=
  exists_text_iff fun _ => message_eq_container_iff

theorem exists_message_eq_program_iff :
    (∃ text, r.message = "malformed DXIL program: " ++ text) ↔ ∃ e, r = .program e :=
  exists_text_iff fun _ => message_eq_program_iff

theorem exists_message_eq_unsupported_iff :
    (∃ stage model, r.message =
        "lowering " ++ stage ++ " shader model " ++ model ++ " DXIL to AIR is not implemented") ↔
      ∃ version, r = .unsupported version := by
  constructor
  · rintro ⟨stage, model, h⟩
    simp only [String.append_assoc] at h
    exact eq_unsupported_of_message h
  · rintro ⟨version, rfl⟩
    exact ⟨version.stage.text, version.model.text, message_unsupported version⟩

theorem exists_message_eq_tokenStream_iff :
    (∃ code : FourCC, r.message =
        "DXBC container holds " ++ code.text ++ " SM4/SM5 bytecode, not DXIL") ↔
      ∃ code, r = .tokenStream code := by
  constructor
  · rintro ⟨code, h⟩
    rw [String.append_assoc] at h
    exact eq_tokenStream_of_message h
  · rintro ⟨code, rfl⟩
    exact ⟨code, message_tokenStream code⟩

theorem message_eq_missingProgram_iff :
    r.message = "DXBC container has no DXIL part (expected DXIL or ILDB)" ↔
      r = .missingProgram := by
  constructor
  · intro h
    have hopening : r.message =
        "DXBC container has " ++ "no DXIL part (expected DXIL or ILDB)" := h
    exact eq_missingProgram_of_message hopening
  · intro h
    rw [h, message_missingProgram]

end Refusal

namespace Event

/-! ## Events -/

variable {event : Event} {text : String}

@[simp] theorem message_md5Disabled :
    md5Disabled.message = "structural MD5 check requested but the md5 feature is disabled" := rfl

@[simp] theorem message_programFound (version : ProgramVersion) (bitcodeSize : Nat) :
    (programFound version bitcodeSize).message = "found DXIL program" := rfl

@[simp] theorem message_loadRefused (refusal : Refusal) (size : Nat) :
    (loadRefused refusal size).message = "DXIL load refused: " ++ refusal.message := rfl

@[simp] theorem message_notContainer (e : FormatError) :
    (notContainer e).message = "not a DXBC container: " ++ e.message := rfl

@[simp] theorem message_badProgram (e : FormatError) :
    (badProgram e).message = "DXIL program header: " ++ e.message := rfl

theorem message_eq_notContainer_iff :
    event.message = "not a DXBC container: " ++ text ↔
      ∃ e, event = .notContainer e ∧ e.message = text := by
  cases event with
  | notContainer e => simp
  | _ => simp [← String.toList_inj]

theorem message_eq_badProgram_iff :
    event.message = "DXIL program header: " ++ text ↔
      ∃ e, event = .badProgram e ∧ e.message = text := by
  cases event with
  | badProgram e => simp
  | _ => simp [← String.toList_inj]

variable {events : List Event}

/-- Where a text shows the kind of an event and its error, so does a log with the text. -/
theorem mem_messages_iff {words : String} {kind : FormatError → Event}
    (h : ∀ event : Event, event.message = words ++ text ↔
      ∃ e, event = kind e ∧ e.message = text) :
    words ++ text ∈ events.map message ↔ ∃ e, kind e ∈ events ∧ e.message = text := by
  simp only [List.mem_map, h]
  constructor
  · rintro ⟨_, hmem, e, rfl, he⟩
    exact ⟨e, hmem, he⟩
  · rintro ⟨e, hmem, he⟩
    exact ⟨kind e, hmem, e, rfl, he⟩

theorem notContainer_mem_messages_iff :
    "not a DXBC container: " ++ text ∈ events.map message ↔
      ∃ e, notContainer e ∈ events ∧ e.message = text :=
  mem_messages_iff fun _ => message_eq_notContainer_iff

theorem badProgram_mem_messages_iff :
    "DXIL program header: " ++ text ∈ events.map message ↔
      ∃ e, badProgram e ∈ events ∧ e.message = text :=
  mem_messages_iff fun _ => message_eq_badProgram_iff

end Event

end ShaderIntake
