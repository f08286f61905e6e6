import ShaderIntake.Json
import ShaderIntake.Proofs.Json.Digits
import ShaderIntake.Proofs.Json.Unambiguous

/-!
# Pretty texts are JSON

The text of a document is a text in the grammar, and it stands for the document
(`isDocument_pretty_append`): numbers without a leading zero, strings with every character that
has to be escaped escaped, commas between items and nowhere else.

The induction over documents is `spells_render`, with one statement for the items of a list
and one for the members of an object; what is left behind a document is arbitrary as long as
it does not go on with a number.
-/

namespace ShaderIntake.Json

/-! ## What a document stands for -/

mutual

/-- The value of a document. -/
def value : Json → JsonValue
  | null => .null
  | bool b => .bool b
  | number n => .number n
  | text s => .text s
  | list items => .list (values items)
  | object members => .object (memberValues members)

def values : List Json → List JsonValue
  | [] => []
  | x :: xs => x.value :: values xs

def memberValues : List (String × Json) → List (String × JsonValue)
  | [] => []
  | (k, x) :: ms => (k, x.value) :: memberValues ms

end

theorem values_eq_map (xs : List Json) : values xs = xs.map value := by
  induction xs with
  | nil => rfl
  | cons x xs ih => rw [values, ih, List.map_cons]

/-! ## Strings -/

theorem hexDigit?_digitChar {n : Nat} (h : n < 16) : hexDigit? (Nat.digitChar n) = some n := by
  have hall : ∀ i : Fin 16, hexDigit? (Nat.digitChar i) = some i.val := by decide
  exact hall ⟨n, h⟩

/-- The escape of a control character without a letter. -/
theorem unit16_escape {n : Nat} (h : n < 0x20) (t : List Char) :
    Unit16 n ('\\' :: 'u' :: '0' :: '0' :: Nat.digitChar (n / 16) :: Nat.digitChar (n % 16) :: t)
      t := by
  have hunit := @Unit16.mk '0' '0' (Nat.digitChar (n / 16)) (Nat.digitChar (n % 16)) 0 0 (n / 16)
    (n % 16) t rfl rfl (hexDigit?_digitChar (by omega)) (hexDigit?_digitChar (by omega))
  have hsum : 0x1000 * 0 + 0x100 * 0 + 0x10 * (n / 16) + n % 16 = n := by omega
  rwa [hsum] at hunit

/-- Every character is escaped in one of the ways that the grammar has, or is its own text. -/
theorem charSpelled_escape (c : Char) (t : List Char) : CharSpelled c (escape c ++ t) t := by
  have hshort {letter d : Char} (hd : shortEscape? letter = some d) (hc : c.toNat = d.toNat) :
      CharSpelled c ('\\' :: letter :: t) t := by
    rw [Char.toNat_inj.1 hc]
    exact .short hd
  rw [escape]
  split
  · next hquote => exact hshort (d := '"') rfl (congrArg Char.toNat hquote)
  next hquote =>
  split
  · next hbackslash => exact hshort (d := '\\') rfl (congrArg Char.toNat hbackslash)
  next hbackslash =>
  split
  · next h => exact hshort (d := '\x08') rfl h
  split
  · next h => exact hshort (d := '\t') rfl h
  split
  · next h => exact hshort (d := '\n') rfl h
  split
  · next h => exact hshort (d := '\x0c') rfl h
  split
  · next h => exact hshort (d := '\r') rfl h
  split
  · next hcontrol => exact .unit (unit16_escape hcontrol t)
  · next hcontrol => exact .unescaped (Nat.le_of_not_lt hcontrol) hquote hbackslash

theorem charsSpelled_flatMap (cs t : List Char) :
    CharsSpelled cs (cs.flatMap escape ++ '"' :: t) t := by
  induction cs with
  | nil => exact .nil
  | cons c cs ih =>
    rw [List.flatMap_cons, List.append_assoc]
    exact .cons (charSpelled_escape c _) ih

theorem spells_quote (k : String) (t : List Char) : Spells (.value (.text k)) (quote k ++ t) t := by
  rw [quote, List.cons_append, List.append_assoc]
  exact .text (charsSpelled_flatMap k.toList t)

/-! ## Numbers -/

/-- The numeral that is only digits. -/
def Numeral.ofNat (n : Nat) : Numeral :=
  ⟨[], Nat.toDigits 10 n, [], none⟩

theorem Numeral.wellFormed_ofNat (n : Nat) : (ofNat n).WellFormed where
  sign := .inl rfl
  whole := isDigits_toDigits n
  leadingZero := by
    intro h
    obtain rfl | hn := Nat.eq_zero_or_pos n
    · rfl
    · exact absurd h (head?_toDigits hn)
  fraction := by simp [ofNat]
  exponent := by simp [ofNat]

theorem Numeral.text_ofNat (n : Nat) : (ofNat n).text = Nat.toDigits 10 n := by
  simp [ofNat, text]

theorem Numeral.value_ofNat (n : Nat) : (ofNat n).value = n := by
  simp [ofNat, value, digitsValue]

theorem spells_toDigits (n : Nat) (t : List Char) :
    Spells (.value (.number n)) (Nat.toDigits 10 n ++ t) t := by
  rw [← Numeral.text_ofNat, ← Numeral.value_ofNat]
  exact .number (Numeral.wellFormed_ofNat n) rfl

/-! ## Documents -/

theorem blanks_newline (level : Nat) (t : List Char) : Blanks (newline level ++ t) t := by
  refine ⟨newline level, ?_, rfl⟩
  intro c hc
  obtain rfl | hc := List.mem_cons.1 hc
  · exact .inr (.inr (.inl rfl))
  · exact .inl (List.eq_of_mem_replicate hc)

theorem Blanks.refl (t : List Char) : Blanks t t :=
  ⟨[], by simp, rfl⟩

theorem spells_item {level : Nat} {x : Json} {s m : List Char}
    (hx : Spells (.value x.value) (render level x ++ s) s) (hs : Blanks s m) :
    Spells (.element x.value) (newline level ++ render level x ++ s) m := by
  rw [List.append_assoc]
  exact .element (blanks_newline level _) hx hs

theorem spells_name (level : Nat) (k : String) (s : List Char) :
    Spells (.name k) (newline level ++ quote k ++ ':' :: s) s := by
  rw [List.append_assoc]
  exact .name (blanks_newline level _) (spells_quote k _) (Blanks.refl _)

theorem spells_member {level : Nat} {x : Json} {s m : List Char}
    (hx : Spells (.value x.value) (render level x ++ s) s) (hs : Blanks s m) :
    Spells (.element x.value) (' ' :: (render level x ++ s)) m :=
  .element ⟨[' '], by simp [IsBlank], rfl⟩ hx hs

mutual

/-- The text of a document stands for the document, whatever comes behind it. -/
theorem spells_render (level : Nat) (x : Json) (t : List Char) :
    Spells (.value x.value) (render level x ++ t) t := by
  match x with
  | .null => exact .null
  | .bool true => exact .true
  | .bool false => exact .false
  | .number n => exact spells_toDigits n t
  | .text s => exact spells_quote s t
  | .list [] => exact .emptyList (Blanks.refl _)
  | .list (x :: xs) =>
    obtain ⟨m, hblanks, hitems⟩ := spells_renderItems (level + 1) level xs t
    have hitem := spells_item (spells_render (level + 1) x _) hblanks
    rw [render]
    simp only [List.cons_append, List.append_assoc, List.nil_append] at hitem ⊢
    exact .list hitem hitems
  | .object [] => exact .emptyObject (Blanks.refl _)
  | .object ((k, x) :: ms) =>
    obtain ⟨m, hblanks, hmembers⟩ := spells_renderMembers (level + 1) level ms t
    have hmember := spells_member (spells_render (level + 1) x _) hblanks
    have hname := spells_name (level + 1) k (' ' :: (render (level + 1) x ++
      (renderMembers (level + 1) ms ++ (newline level ++ '\x7d' :: t))))
    rw [render]
    simp only [List.cons_append, List.append_assoc, List.nil_append] at hname ⊢
    exact .object hname hmember hmembers

/-- After the last item the line is broken, and the bracket stands behind that. -/
theorem spells_renderItems (level outer : Nat) (xs : List Json) (t : List Char) :
    ∃ m, Blanks (renderItems level xs ++ (newline outer ++ ']' :: t)) m ∧
      Spells (.items (values xs)) m t := by
  match xs with
  | [] => exact ⟨_, blanks_newline outer _, .endItems⟩
  | x :: xs =>
    obtain ⟨m, hblanks, hitems⟩ := spells_renderItems level outer xs t
    have hitem := spells_item (spells_render level x _) hblanks
    refine ⟨_, Blanks.refl _, ?_⟩
    rw [renderItems]
    simp only [List.cons_append, List.append_assoc] at hitem ⊢
    exact .nextItem hitem hitems

theorem spells_renderMembers (level outer : Nat) (ms : List (String × Json)) (t : List Char) :
    ∃ m, Blanks (renderMembers level ms ++ (newline outer ++ '\x7d' :: t)) m ∧
      Spells (.members (memberValues ms)) m t := by
  match ms with
  | [] => exact ⟨_, blanks_newline outer _, .endMembers⟩
  | (k, x) :: ms =>
    obtain ⟨m, hblanks, hmembers⟩ := spells_renderMembers level outer ms t
    have hmember := spells_member (spells_render level x _) hblanks
    have hname := spells_name level k (' ' :: (render level x ++
      (renderMembers level ms ++ (newline outer ++ '\x7d' :: t))))
    refine ⟨_, Blanks.refl _, ?_⟩
    rw [renderMembers]
    simp only [List.cons_append, List.append_assoc] at hname ⊢
    exact .nextMember hname hmember hmembers

end

theorem toList_pretty (x : Json) : x.pretty.toList = render 0 x := by
  rw [pretty, String.toList_ofList]

theorem spells_pretty (x : Json) : Spells (.value x.value) x.pretty.toList [] := by
  rw [toList_pretty, ← List.append_nil (render 0 x)]
  exact spells_render 0 x []

/-- The text of a document is JSON and stands for the document and for nothing else, also
with blanks behind it. -/
theorem isDocument_pretty_append {x : Json} {y : JsonValue} {blanks : String}
    (hblanks : ∀ c ∈ blanks.toList, IsBlank c) :
    IsDocument (x.pretty ++ blanks) y ↔ y = x.value := by
  have hdocument : IsDocument (x.pretty ++ blanks) x.value := by
    rw [IsDocument, String.toList_append, toList_pretty]
    exact .element (Blanks.refl _) (spells_render 0 x _)
      ⟨blanks.toList, hblanks, by rw [List.append_nil]⟩
  constructor
  · intro h
    exact h.unique hdocument
  · intro h
    rw [h]
    exact hdocument

/-- What a document stands for can be told from its text. -/
theorem value_eq_of_pretty_eq {x y : Json} (h : x.pretty = y.pretty) : x.value = y.value := by
  have hx : IsDocument x.pretty x.value :=
    .element (Blanks.refl _) (spells_pretty x) (Blanks.refl _)
  have hy : IsDocument y.pretty y.value :=
    .element (Blanks.refl _) (spells_pretty y) (Blanks.refl _)
  rw [h] at hx
  exact hx.unique hy

end ShaderIntake.Json
