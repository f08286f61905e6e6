import ShaderIntake.Proofs.FourCC.Text
import ShaderIntake.Proofs.Json.Digits
import ShaderIntake.Proofs.Json.Unambiguous

/-!
# Printable texts and their lines

`Printable` texts have characters from the space to the tilde only, so they can be put into a
line of a log or a report and stay inside it.  Numbers are printable, and so are the texts of
codes, whatever their bytes.  A number in a text ends where its digits do, on either side
(`number_append_inj`, `append_number_inj`).

`lines` takes a text apart at its line breaks.  Two layouts are undone: lines of which each has
a line break behind it (`lines_join_breaks_behind`), and lines with a line break before each but
the first (`lines_join_breaks_before`).
-/

namespace ShaderIntake

namespace Text

/-! ## Printable characters -/

/-- A character of ASCII that is no control character. -/
def IsPrintable (c : Char) : Prop :=
  0x20 ≤ c.toNat ∧ c.toNat ≤ 0x7e

instance (c : Char) : Decidable (IsPrintable c) :=
  inferInstanceAs (Decidable (_ ∧ _))

/-- All characters are printable. -/
def Printable (s : String) : Prop :=
  ∀ c ∈ s.toList, IsPrintable c

-- Over the characters of the text, and not over all the characters there are.
instance (s : String) : Decidable (Printable s) :=
  List.decidableBAll IsPrintable s.toList

theorem not_isPrintable_newline : ¬IsPrintable '\n' := by decide

theorem isPrintable_of_isDigit {c : Char} (h : c.isDigit) : IsPrintable c := by
  rw [Char.isDigit_iff_toNat] at h
  exact ⟨Nat.le_trans (by decide) h.1, Nat.le_trans h.2 (by decide)⟩

theorem Printable.append {s t : String} (hs : Printable s) (ht : Printable t) :
    Printable (s ++ t) := by
  intro c hc
  rw [String.toList_append, List.mem_append] at hc
  exact hc.elim (hs c) (ht c)

/-- Fixed words, of which only the characters are looked at and not their encoding. -/
theorem Printable.words {chars : List Char}
    (h : chars.all (fun c => IsPrintable c) = true := by decide) :
    Printable (String.ofList chars) := by
  rw [Printable, String.toList_ofList]
  intro c hc
  exact of_decide_eq_true (List.all_eq_true.1 h c hc)

theorem utf8ByteSize_ofPrintable {chars : List Char} (h : ∀ c ∈ chars, IsPrintable c) :
    (String.ofList chars).utf8ByteSize = chars.length := by
  induction chars with
  | nil => rfl
  | cons c chars ih =>
    rw [List.forall_mem_cons] at h
    have hsize : c.utf8Size = 1 := by
      rw [Char.utf8Size_eq_one_iff, UInt32.le_iff_toNat_le]
      exact Nat.le_trans h.1.2 (by decide)
    rw [String.ofList_cons, String.utf8ByteSize_append, String.utf8ByteSize_singleton, hsize,
      ih h.2, List.length_cons, Nat.add_comm]

/-- A printable character takes one byte. -/
theorem Printable.utf8ByteSize {s : String} (h : Printable s) : s.utf8ByteSize = s.length := by
  rw [← String.length_toList, ← utf8ByteSize_ofPrintable h, String.ofList_toList]

/-! ## Numbers -/

theorem toList_number (n : Nat) : (toString n).toList = Nat.toDigits 10 n :=
  Nat.toList_repr

theorem isDigit_of_mem_number {n : Nat} {c : Char} (hc : c ∈ (toString n).toList) : c.isDigit := by
  rw [toList_number] at hc
  exact Nat.isDigit_of_mem_toDigits (by omega) (by omega) hc

theorem printable_number (n : Nat) : Printable (toString n) :=
  fun _ hc => isPrintable_of_isDigit (isDigit_of_mem_number hc)

theorem toList_number_inj {m n : Nat} (h : (toString m).toList = (toString n).toList) : m = n := by
  rw [toList_number, toList_number] at h
  rw [← Json.digitsValue_toDigits m, h, Json.digitsValue_toDigits]

/-- No digit stands at the front. -/
def NoDigit (s : List Char) : Prop :=
  Json.NoHead (fun c => c.isDigit) s

theorem noDigit_cons {c : Char} (s : List Char) (hc : ¬c.isDigit) : NoDigit (c :: s) :=
  Json.noHead_cons.2 hc

section Numbers

variable {m n : Nat} {s t : String}

theorem number_append_inj (hs : NoDigit s.toList) (ht : NoDigit t.toList)
    (h : toString m ++ s = toString n ++ t) : m = n ∧ s = t := by
  rw [← String.toList_inj, String.toList_append, String.toList_append] at h
  obtain ⟨hnumber, hrest⟩ := Json.append_unique (fun _ hc => isDigit_of_mem_number hc)
    (fun _ hc => isDigit_of_mem_number hc) hs ht h
  exact ⟨toList_number_inj hnumber, String.toList_inj.1 hrest⟩

theorem append_number_inj (hs : NoDigit s.toList.reverse) (ht : NoDigit t.toList.reverse)
    (h : s ++ toString m = t ++ toString n) : s = t ∧ m = n := by
  have hreverse := congrArg (fun u : String => u.toList.reverse) h
  simp only [String.toList_append, List.reverse_append] at hreverse
  obtain ⟨hnumber, hrest⟩ := Json.append_unique
    (fun _ hc => isDigit_of_mem_number (List.mem_reverse.1 hc))
    (fun _ hc => isDigit_of_mem_number (List.mem_reverse.1 hc)) hs ht hreverse
  exact ⟨String.toList_inj.1 (List.reverse_inj.1 hrest),
    toList_number_inj (List.reverse_inj.1 hnumber)⟩

end Numbers

/-- A value with words on both sides. -/
theorem Printable.value {s v t : String} (hs : Printable s) (hv : Printable v)
    (ht : Printable t) : Printable (s ++ v ++ t) :=
  .append (.append hs hv) ht

theorem printable_bool (b : Bool) : Printable (toString b) := by
  cases b <;> decide

/-! ## Lines -/

/-- The text has no line break. -/
def OneLine (s : String) : Prop :=
  '\n' ∉ s.toList

theorem Printable.oneLine {s : String} (h : Printable s) : OneLine s :=
  fun hmem => not_isPrintable_newline (h _ hmem)

theorem OneLine.append {s t : String} (hs : OneLine s) (ht : OneLine t) : OneLine (s ++ t) := by
  rw [OneLine, String.toList_append, List.mem_append]
  exact not_or.2 ⟨hs, ht⟩

/-- The characters line by line.  A line ends at a line break or where the text does. -/
def splitLines : List Char → List (List Char)
  | [] => []
  | c :: rest =>
    if c = '\n' then [] :: splitLines rest
    else match splitLines rest with
      | [] => [[c]]
      | line :: others => (c :: line) :: others

/-- The lines of a text, without their line breaks. -/
def lines (s : String) : List String :=
  (splitLines s.toList).map String.ofList

theorem splitLines_cons_of_ne {c : Char} {rest line : List Char} {others : List (List Char)}
    (hc : c ≠ '\n') (h : splitLines rest = line :: others) :
    splitLines (c :: rest) = (c :: line) :: others := by
  rw [splitLines, if_neg hc, h]

theorem splitLines_line_append {line rest : List Char} (h : '\n' ∉ line) :
    splitLines (line ++ '\n' :: rest) = line :: splitLines rest := by
  induction line with
  | nil => rw [List.nil_append, splitLines, if_pos rfl]
  | cons c line ih =>
    rw [List.mem_cons, not_or] at h
    exact splitLines_cons_of_ne (Ne.symm h.1) (ih h.2)

theorem splitLines_line {line : List Char} (hne : line ≠ []) (h : '\n' ∉ line) :
    splitLines line = [line] := by
  induction line with
  | nil => exact absurd rfl hne
  | cons c line ih =>
    rw [List.mem_cons, not_or] at h
    cases line with
    | nil => rw [splitLines, if_neg (Ne.symm h.1), splitLines]
    | cons d line => exact splitLines_cons_of_ne (Ne.symm h.1) (ih (List.cons_ne_nil d line) h.2)

theorem lines_line_append {line : String} (h : OneLine line) (rest : String) :
    lines (line ++ ("\n" ++ rest)) = line :: lines rest := by
  have hchars : (line ++ ("\n" ++ rest)).toList = line.toList ++ '\n' :: rest.toList := by
    simp
  rw [lines, hchars, splitLines_line_append h, List.map_cons, String.ofList_toList, lines]

theorem lines_line {line : String} (hne : line ≠ "") (h : OneLine line) : lines line = [line] := by
  rw [lines, splitLines_line (mt String.toList_eq_nil_iff.1 hne) h, List.map_cons, List.map_nil,
    String.ofList_toList]

/-- Lines with a line break behind each. -/
theorem lines_join_breaks_behind {texts : List String} (h : ∀ s ∈ texts, OneLine s) :
    lines (String.join (texts.map (· ++ "\n"))) = texts := by
  induction texts with
  | nil => rfl
  | cons s texts ih =>
    rw [List.forall_mem_cons] at h
    rw [List.map_cons, String.join_cons, String.append_assoc, lines_line_append h.1, ih h.2]

/-- Lines with a line break before each but the first. -/
theorem lines_join_breaks_before {s : String} {texts : List String} (hne : s ≠ "") (hs : OneLine s)
    (h : ∀ t ∈ texts, t ≠ "" ∧ OneLine t) :
    lines (s ++ String.join (texts.map ("\n" ++ ·))) = s :: texts := by
  induction texts generalizing s with
  | nil => rw [List.map_nil, String.join_nil, String.append_empty, lines_line hne hs]
  | cons t texts ih =>
    rw [List.forall_mem_cons] at h
    rw [List.map_cons, String.join_cons, String.append_assoc, lines_line_append hs,
      ih h.1.1 h.1.2 h.2]

/-- The line breaks before the lines are behind the lines before them. -/
theorem join_breaks_before_append (s : String) (texts : List String) :
    s ++ String.join (texts.map ("\n" ++ ·)) ++ "\n" =
      String.join ((s :: texts).map (· ++ "\n")) := by
  induction texts generalizing s with
  | nil => rw [List.map_nil, String.join_nil, String.append_empty, List.map_cons, List.map_nil,
      String.join_cons, String.join_nil, String.append_empty]
  | cons t texts ih =>
    rw [List.map_cons, String.join_cons, List.map_cons, String.join_cons, ← ih t]
    simp only [String.append_assoc]

/-- The line breaks are those before the lines. -/
theorem count_join_breaks_before {s : String} {texts : List String} (hs : OneLine s)
    (h : ∀ t ∈ texts, OneLine t) :
    (s ++ String.join (texts.map ("\n" ++ ·))).toList.count '\n' = texts.length := by
  rw [String.toList_append, List.count_append, List.count_eq_zero.2 hs, Nat.zero_add]
  induction texts with
  | nil => rfl
  | cons t texts ih =>
    rw [List.forall_mem_cons] at h
    have hbreak : ("\n" ++ t).toList.count '\n' = 1 := by
      rw [String.toList_append, List.count_append, List.count_eq_zero.2 h.1]
      rfl
    rw [List.map_cons, String.join_cons, String.toList_append, List.count_append, hbreak,
      ih h.2, List.length_cons, Nat.add_comm]

example : lines "a b\n\nc\n" = ["a b", "", "c"] := by decide

end Text

/-! ## Codes -/

namespace FourCC

open Text

theorem isPrintable_digitChar {d : Nat} (hd : d < 16) : Text.IsPrintable (Nat.digitChar d) := by
  have hall : ∀ i : Fin 16, Text.IsPrintable (Nat.digitChar i) := by decide
  exact hall ⟨d, hd⟩

/-- A byte that is no printable character is escaped by printable characters. -/
theorem isPrintable_of_mem_byteText {b : UInt8} {c : Char} (hc : c ∈ byteText b) :
    Text.IsPrintable c := by
  by_cases hb : IsPrintable b
  · rw [byteText_of_printable hb, List.mem_singleton] at hc
    rw [hc, Text.IsPrintable, toNat_charOfByte]
    exact hb
  · have hbyte := b.toNat_lt
    rw [byteText_of_not_printable hb] at hc
    simp only [List.mem_cons, List.not_mem_nil, or_false] at hc
    rcases hc with rfl | rfl | rfl | rfl
    · decide
    · decide
    · exact isPrintable_digitChar (by omega)
    · exact isPrintable_digitChar (by omega)

theorem printable_text (f : FourCC) : Printable f.text := by
  intro c hc
  rw [toList_text, spell, List.mem_flatMap] at hc
  obtain ⟨b, -, hb⟩ := hc
  exact isPrintable_of_mem_byteText hb

theorem printable_quoted (f : FourCC) : Printable f.quoted :=
  .append (.append .words f.printable_text) .words

end FourCC

end ShaderIntake
