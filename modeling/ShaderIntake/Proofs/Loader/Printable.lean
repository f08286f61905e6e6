import ShaderIntake.Proofs.Loader.Message
import ShaderIntake.Proofs.Text

/-!
# Messages are printable

The texts of format errors, refusals and events are fixed words with numbers, codes and the
names of stages between them.  All of these are printable, so no byte of a blob gets into a
message as a control character, however often one message is put into another.
-/

namespace ShaderIntake

open Text

/-! ## Program versions -/

theorem Stage.printable_text (stage : Stage) : Printable stage.text := by
  cases stage with
  | unknown kind => exact .append (.append (by decide) (printable_number _)) (by decide)
  | _ => decide

theorem Model.printable_text (m : Model) : Printable m.text :=
  .value (printable_number _) .words (printable_number _)

/-! ## Format errors -/

namespace FormatError

theorem Kind.printable_title (k : Kind) : Printable k.title := by
  cases k <;> exact .words

theorem printable_headRegion (offset : Nat) : Printable (headRegion offset) := by
  rw [headRegion]
  split <;> exact .words

/-- Each case has the errors with as many values between their words. -/
theorem printable_context (e : FormatError) : Printable e.context := by
  cases e with
  | magicUnreadable | programMagicUnreadable | bitcodeOffsetOverflow | bitcodeSizeOverflow
  | wordPositionOverflow => exact .words
  | programSizeOverflow | programSizeTooSmall | bitcodeOverHeader =>
    exact .value .words (printable_number _) .words
  | badMagic found | badProgramMagic found =>
    exact .append (.value .words found.printable_quoted .words)
      (FourCC.printable_quoted _)
  | headerTruncated | tooManyChunks | totalSizeTooSmall | totalSizePastEnd | tablePastEnd
  | programTruncated | programPastEnd =>
    exact .append (.value .words (printable_number _) .words) (printable_number _)
  | chunkOffsetOverflow | chunkSizeOverflow =>
    exact .value (.value .words (printable_number _) .words)
      (printable_number _) .words
  | wordOutside =>
    exact .append (.value (.value .words (printable_number _) .words)
      (printable_number _) .words) (printable_number _)
  | bitcodePastEnd | rangeOutside =>
    exact .value (.value (.value .words (printable_number _) .words)
      (printable_number _) .words) (printable_number _) .words
  | chunkHeaderOutside =>
    exact .append (.value (.value (.value .words (printable_number _) .words)
      (printable_number _) .words) (printable_number _) .words) (printable_number _)
  | offsetIntoHead index offset =>
    exact .value (.value (.value (.value .words (printable_number _) .words)
      (printable_number _) .words) (printable_headRegion offset) .words)
      (printable_number _) .words
  | chunkDataOutside index fourcc =>
    exact .append (.value (.value (.value (.value .words (printable_number _) .words)
      fourcc.printable_text .words) (printable_number _) .words)
      (printable_number _) .words) (printable_number _)

theorem printable_message (e : FormatError) : Printable e.message :=
  .append (.append e.kind.printable_title .words) e.printable_context

end FormatError

/-! ## Refusals and events -/

theorem Refusal.printable_message (r : Refusal) : Printable r.message := by
  cases r with
  | empty | structuralMd5Mismatch | missingProgram => exact .words
  | tooLarge =>
    exact .value (.value .words (printable_number _) .words)
      (printable_number _) .words
  | container e | program e => exact .append .words e.printable_message
  | tokenStream fourcc => exact .value .words fourcc.printable_text .words
  | unsupported version =>
    rw [message_unsupported]
    exact .value (.value .words version.stage.printable_text .words)
      version.model.printable_text .words

namespace Event

theorem printable_message (event : Event) : Printable event.message := by
  cases event with
  | programFound version bitcodeSize =>
    rw [message_programFound]
    decide
  | md5Disabled => exact .words
  | loadRefused r => exact .append .words r.printable_message
  | notContainer e | badProgram e => exact .append .words e.printable_message

theorem printable_fields (event : Event) :
    ∀ field ∈ event.fields, Printable field.1 ∧ Printable field.2 := by
  cases event with
  | programFound version bitcodeSize =>
    simp only [fields, List.forall_mem_cons]
    exact ⟨⟨by decide, version.stage.printable_text⟩, ⟨by decide, version.model.printable_text⟩,
      ⟨by decide, printable_number _⟩, List.forall_mem_nil _⟩
  | loadRefused r size =>
    simp only [fields, List.forall_mem_cons]
    exact ⟨⟨by decide, printable_number _⟩, ⟨by decide, printable_bool _⟩, List.forall_mem_nil _⟩
  | md5Disabled | notContainer | badProgram => exact List.forall_mem_nil _

end Event

end ShaderIntake
