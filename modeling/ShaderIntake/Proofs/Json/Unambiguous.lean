import ShaderIntake.Proofs.Json.Grammar

/-!
# The grammar of JSON is unambiguous

A text is the spelling of one value at most (`IsDocument.unique`).  Blanks and numbers can be
left off early in the grammar, so what follows them has to say where they end: `NoHead p t`
says that `t` does not begin with a character that could still belong to them.  All other
parts show their end themselves.

`Spells.unique` is the induction over the grammar, with `Part.IsUnique` for what is known
about each kind of part; the lemmas before it are about tokens.
-/

namespace ShaderIntake.Json

/-! ## Where a run of characters ends -/

/-- The text does not begin with a character that has the property. -/
def NoHead (p : Char → Prop) (t : List Char) : Prop :=
  ∀ c ∈ t.head?, ¬p c

theorem noHead_nil {p : Char → Prop} : NoHead p [] :=
  fun _ h => nomatch h

theorem noHead_cons {p : Char → Prop} {c : Char} {t : List Char} :
    NoHead p (c :: t) ↔ ¬p c := by
  simp [NoHead]

theorem NoHead.mono {p q : Char → Prop} {t : List Char} (h : NoHead q t) (hpq : ∀ c, p c → q c) :
    NoHead p t :=
  fun c hc hp => h c hc (hpq c hp)

/-- A run of characters with a property goes on until a character without it. -/
theorem append_unique {p : Char → Prop} {xs ys t u : List Char} (hxs : ∀ c ∈ xs, p c)
    (hys : ∀ c ∈ ys, p c) (ht : NoHead p t) (hu : NoHead p u) (h : xs ++ t = ys ++ u) :
    xs = ys ∧ t = u := by
  induction xs generalizing ys with
  | nil =>
    cases ys with
    | nil => exact ⟨rfl, h⟩
    | cons c ys =>
      rw [List.nil_append, List.cons_append] at h
      rw [h, noHead_cons] at ht
      exact absurd (hys c List.mem_cons_self) ht
  | cons c xs ih =>
    rw [List.forall_mem_cons] at hxs
    cases ys with
    | nil =>
      rw [List.nil_append, List.cons_append] at h
      rw [← h, noHead_cons] at hu
      exact absurd hxs.1 hu
    | cons d ys =>
      rw [List.forall_mem_cons] at hys
      obtain ⟨hhead, htail⟩ := List.cons.inj h
      obtain ⟨hrest, hleft⟩ := ih hxs.2 hys.2 htail
      rw [hhead, hrest]
      exact ⟨rfl, hleft⟩

instance (c : Char) : Decidable (IsBlank c) :=
  inferInstanceAs (Decidable (_ ∨ _))

theorem Blanks.unique {s t u : List Char} (h : Blanks s t) (h' : Blanks s u)
    (ht : NoHead IsBlank t) (hu : NoHead IsBlank u) : t = u := by
  obtain ⟨blanks, hblanks, rfl⟩ := h
  obtain ⟨blanks', hblanks', heq⟩ := h'
  exact (append_unique hblanks hblanks' ht hu heq).2

theorem Blanks.cons_unique {c : Char} {s t u : List Char} (hc : ¬IsBlank c)
    (h : Blanks s (c :: t)) (h' : Blanks s (c :: u)) : t = u :=
  (List.cons.inj (h.unique h' (noHead_cons.2 hc) (noHead_cons.2 hc))).2

/-! ## Strings -/

theorem Unit16.unique {m n : Nat} {s t u : List Char} (h : Unit16 m s t) (h' : Unit16 n s u) :
    m = n ∧ t = u := by
  obtain ⟨h₃, h₂, h₁, h₀⟩ := h
  obtain ⟨h₃', h₂', h₁', h₀'⟩ := h'
  rw [h₃] at h₃'
  rw [h₂] at h₂'
  rw [h₁] at h₁'
  rw [h₀] at h₀'
  cases h₃'
  cases h₂'
  cases h₁'
  cases h₀'
  exact ⟨rfl, rfl⟩

theorem Unit16.eq_cons {n : Nat} {s t : List Char} (h : Unit16 n s t) :
    ∃ digits, s = '\\' :: 'u' :: digits := by
  cases h
  exact ⟨_, rfl⟩

theorem Unit16.head_eq {n : Nat} {c : Char} {s t : List Char} (h : Unit16 n (c :: s) t) :
    c = '\\' := by
  cases h
  rfl

theorem Unit16.shortEscape?_eq {n : Nat} {letter : Char} {s t : List Char}
    (h : Unit16 n ('\\' :: letter :: s) t) : shortEscape? letter = none := by
  cases h
  rfl

/-- No character has a half of a pair as its number. -/
theorem not_surrogate (c : Char) : c.toNat < 0xd800 ∨ 0xe000 ≤ c.toNat := by
  obtain hlow | ⟨hhigh, _⟩ := c.valid
  · exact .inl hlow
  · exact .inr hhigh

theorem CharSpelled.noHead {c : Char} {s t : List Char} (h : CharSpelled c s t) :
    NoHead (· = '"') s := by
  cases h with
  | unescaped _ hquote => exact noHead_cons.2 hquote
  | short => exact noHead_cons.2 (by decide)
  | unit h =>
    obtain ⟨_, rfl⟩ := h.eq_cons
    exact noHead_cons.2 (by decide)
  | pair hhigh =>
    obtain ⟨_, rfl⟩ := hhigh.eq_cons
    exact noHead_cons.2 (by decide)

/-- Where a number is escaped, it is the number of the character or of its first half. -/
theorem CharSpelled.of_unit {c : Char} {n : Nat} {s t u : List Char} (h : CharSpelled c s u)
    (hn : Unit16 n s t) :
    (n = c.toNat ∧ t = u) ∨
      ((0xd800 ≤ n ∧ n < 0xdc00) ∧ ∃ low, Unit16 low t u ∧
        c.toNat = 0x10000 + 0x400 * (n - 0xd800) + (low - 0xdc00) ∧ 0xdc00 ≤ low) := by
  cases h with
  | unescaped _ _ hbackslash =>
    exact absurd hn.head_eq hbackslash
  | short hletter =>
    rw [hn.shortEscape?_eq] at hletter
    cases hletter
  | unit h => exact .inl (hn.unique h)
  | pair hhigh hlow hhighRange hlowRange hc =>
    obtain ⟨rfl, rfl⟩ := hn.unique hhigh
    exact .inr ⟨hhighRange, _, hlow, hc, hlowRange.1⟩

theorem CharSpelled.unique {c d : Char} {s t u : List Char} (h : CharSpelled c s t)
    (h' : CharSpelled d s u) : c = d ∧ t = u := by
  cases h with
  | unescaped _ _ hbackslash =>
    cases h' with
    | unescaped => exact ⟨rfl, rfl⟩
    | short => exact absurd rfl hbackslash
    | unit h => exact absurd h.head_eq hbackslash
    | pair hhigh => exact absurd hhigh.head_eq hbackslash
  | short hletter =>
    cases h' with
    | unescaped _ _ hbackslash => exact absurd rfl hbackslash
    | short hletter' => exact ⟨Option.some.inj (hletter.symm.trans hletter'), rfl⟩
    | unit h =>
      rw [h.shortEscape?_eq] at hletter
      cases hletter
    | pair hhigh =>
      rw [hhigh.shortEscape?_eq] at hletter
      cases hletter
  | unit h =>
    obtain ⟨hnumber, rfl⟩ | ⟨hhalf, _⟩ := h'.of_unit h
    · exact ⟨Char.toNat_inj.1 hnumber, rfl⟩
    · have := not_surrogate c
      omega
  | pair hhigh hlow hhighRange hlowRange hc =>
    obtain ⟨hnumber, rfl⟩ | ⟨_, low', hlow', hd, hlow'Range⟩ := h'.of_unit hhigh
    · have := not_surrogate d
      omega
    · obtain ⟨rfl, rfl⟩ := hlow.unique hlow'
      exact ⟨Char.toNat_inj.1 (hc.trans hd.symm), rfl⟩

theorem CharsSpelled.unique {cs ds s t u : List Char} (h : CharsSpelled cs s t)
    (h' : CharsSpelled ds s u) : cs = ds ∧ t = u := by
  induction h generalizing ds with
  | nil =>
    cases h' with
    | nil => exact ⟨rfl, rfl⟩
    | cons head => exact (noHead_cons.1 head.noHead rfl).elim
  | cons head tail ih =>
    cases h' with
    | nil => exact (noHead_cons.1 head.noHead rfl).elim
    | cons head' tail' =>
      obtain ⟨rfl, rfl⟩ := head.unique head'
      obtain ⟨rfl, rfl⟩ := ih tail'
      exact ⟨rfl, rfl⟩

/-! ## Numbers -/

/-- The character may belong to a number behind its first digit. -/
def IsNumeric (c : Char) : Prop :=
  c.isDigit ∨ c = '.' ∨ c = 'e' ∨ c = 'E'

instance (c : Char) : Decidable (IsNumeric c) :=
  inferInstanceAs (Decidable (_ ∨ _))

theorem NoHead.digit {t : List Char} (h : NoHead IsNumeric t) :
    NoHead (fun c => c.isDigit = true) t :=
  h.mono fun _ => .inl

theorem IsDigits.exists_cons {digits : List Char} (h : IsDigits digits) :
    ∃ c rest, digits = c :: rest ∧ c.isDigit := by
  obtain ⟨c, rest, rfl⟩ := List.exists_cons_of_ne_nil h.1
  exact ⟨c, rest, rfl, h.2 c List.mem_cons_self⟩

/-- A sign ends where the digits begin. -/
theorem sign_unique {sign sign' digits digits' t u : List Char}
    (hsign : sign = [] ∨ sign = ['+'] ∨ sign = ['-'])
    (hsign' : sign' = [] ∨ sign' = ['+'] ∨ sign' = ['-'])
    (hdigits : IsDigits digits) (hdigits' : IsDigits digits')
    (h : sign ++ (digits ++ t) = sign' ++ (digits' ++ u)) :
    sign = sign' ∧ digits ++ t = digits' ++ u := by
  have hchars (sign : List Char) (h : sign = [] ∨ sign = ['+'] ∨ sign = ['-']) :
      ∀ c ∈ sign, c = '+' ∨ c = '-' := by
    obtain rfl | rfl | rfl := h <;> simp
  have hends (digits t : List Char) (h : IsDigits digits) :
      NoHead (fun c => c = '+' ∨ c = '-') (digits ++ t) := by
    obtain ⟨c, rest, rfl, hc⟩ := h.exists_cons
    rw [List.cons_append, noHead_cons]
    rintro (rfl | rfl) <;> cases hc
  exact append_unique (hchars sign hsign) (hchars sign' hsign') (hends digits t hdigits)
    (hends digits' u hdigits') h

/-- A fraction, which is a point and digits or nothing. -/
theorem fraction_unique {f f' t u : List Char} (hf : ∀ c ∈ f, c.isDigit)
    (hf' : ∀ c ∈ f', c.isDigit) (ht : NoHead (fun c => c.isDigit ∨ c = '.') t)
    (hu : NoHead (fun c => c.isDigit ∨ c = '.') u)
    (h : (if f = [] then [] else '.' :: f) ++ t = (if f' = [] then [] else '.' :: f') ++ u) :
    f = f' ∧ t = u := by
  by_cases hnil : f = []
  · by_cases hnil' : f' = []
    · rw [if_pos hnil, if_pos hnil'] at h
      exact ⟨hnil.trans hnil'.symm, h⟩
    · rw [if_pos hnil, if_neg hnil', List.nil_append, List.cons_append] at h
      rw [h, noHead_cons] at ht
      exact absurd (.inr rfl) ht
  · by_cases hnil' : f' = []
    · rw [if_neg hnil, if_pos hnil', List.nil_append, List.cons_append] at h
      rw [← h, noHead_cons] at hu
      exact absurd (.inr rfl) hu
    · rw [if_neg hnil, if_neg hnil', List.cons_append, List.cons_append] at h
      exact append_unique hf hf' (ht.mono fun _ => .inl) (hu.mono fun _ => .inl)
        (List.cons.inj h).2

theorem noHead_fraction {f t : List Char} (ht : NoHead (fun c => c.isDigit ∨ c = '.') t) :
    NoHead (fun c => c.isDigit) ((if f = [] then [] else '.' :: f) ++ t) := by
  split
  · exact ht.mono fun _ => .inl
  · exact noHead_cons.2 (by decide)

theorem Exponent.unique {e e' : Exponent} {t u : List Char} (he : e.WellFormed)
    (he' : e'.WellFormed) (ht : NoHead IsNumeric t) (hu : NoHead IsNumeric u)
    (h : e.text ++ t = e'.text ++ u) : e = e' ∧ t = u := by
  rw [text, text, List.cons_append, List.cons_append, List.append_assoc, List.append_assoc] at h
  obtain ⟨hletter, hbehind⟩ := List.cons.inj h
  obtain ⟨hsign, hdigits⟩ := sign_unique he.sign he'.sign he.digits he'.digits hbehind
  obtain ⟨hdigits, hrest⟩ := append_unique he.digits.2 he'.digits.2 ht.digit hu.digit hdigits
  cases e
  cases e'
  simp only at hletter hsign hdigits
  rw [hletter, hsign, hdigits]
  exact ⟨rfl, hrest⟩

theorem Exponent.not_noHead {e : Exponent} (he : e.WellFormed) {t : List Char} :
    ¬NoHead IsNumeric (e.text ++ t) := by
  intro h
  rw [text, List.cons_append, noHead_cons] at h
  exact h (.inr (.inr he.letter))

section Exponents

variable {e e' : Option Exponent} {t u : List Char} (he : ∀ x ∈ e, x.WellFormed)
  (ht : NoHead IsNumeric t)

include he ht

/-- An exponent begins with a letter, and what follows a number does not go on with it. -/
theorem noHead_exponent : NoHead (fun c => c.isDigit ∨ c = '.') (e.elim [] Exponent.text ++ t) := by
  cases e with
  | none =>
    apply ht.mono
    rintro c (hc | hc)
    · exact .inl hc
    · exact .inr (.inl hc)
  | some x =>
    rw [Option.elim, Exponent.text, List.cons_append, noHead_cons]
    obtain hletter | hletter := (he x rfl).letter <;> simp [hletter]

theorem exponent_unique (he' : ∀ x ∈ e', x.WellFormed) (hu : NoHead IsNumeric u)
    (h : e.elim [] Exponent.text ++ t = e'.elim [] Exponent.text ++ u) : e = e' ∧ t = u := by
  cases e with
  | none =>
    cases e' with
    | none => exact ⟨rfl, h⟩
    | some x =>
      rw [Option.elim, Option.elim, List.nil_append] at h
      rw [h] at ht
      exact absurd ht (Exponent.not_noHead (he' x rfl))
  | some x =>
    cases e' with
    | none =>
      rw [Option.elim, Option.elim, List.nil_append] at h
      rw [← h] at hu
      exact absurd hu (Exponent.not_noHead (he x rfl))
    | some x' =>
      obtain ⟨rfl, hrest⟩ := Exponent.unique (he x rfl) (he' x' rfl) ht hu h
      exact ⟨rfl, hrest⟩

end Exponents

/-- A numeral goes on for as long as it can. -/
theorem Numeral.unique {n n' : Numeral} {t u : List Char} (hn : n.WellFormed)
    (hn' : n'.WellFormed) (ht : NoHead IsNumeric t) (hu : NoHead IsNumeric u)
    (h : n.text ++ t = n'.text ++ u) : n = n' ∧ t = u := by
  simp only [text, List.append_assoc] at h
  have hsigned (n : Numeral) (hn : n.WellFormed) :
      n.sign = [] ∨ n.sign = ['+'] ∨ n.sign = ['-'] := hn.sign.imp_right .inr
  obtain ⟨hsign, h⟩ := sign_unique (hsigned n hn) (hsigned n' hn') hn.whole hn'.whole h
  have hexponent := noHead_exponent hn.exponent ht
  have hexponent' := noHead_exponent hn'.exponent hu
  obtain ⟨hwhole, h⟩ := append_unique hn.whole.2 hn'.whole.2 (noHead_fraction hexponent)
    (noHead_fraction hexponent') h
  obtain ⟨hfraction, h⟩ := fraction_unique hn.fraction hn'.fraction hexponent hexponent' h
  obtain ⟨hexponent, hrest⟩ := exponent_unique hn.exponent ht hn'.exponent hu h
  cases n
  cases n'
  simp only at hsign hwhole hfraction hexponent
  rw [hsign, hwhole, hfraction, hexponent]
  exact ⟨rfl, hrest⟩

/-- A numeral begins with the minus sign or a digit. -/
theorem Numeral.exists_cons {n : Numeral} (h : n.WellFormed) :
    ∃ c rest, n.text = c :: rest ∧ (c = '-' ∨ c.isDigit) := by
  obtain ⟨d, digits, hwhole, hd⟩ := h.whole.exists_cons
  rw [text, hwhole]
  obtain hsign | hsign := h.sign
  · rw [hsign]
    exact ⟨d, _, rfl, .inr hd⟩
  · rw [hsign]
    exact ⟨'-', _, rfl, .inl rfl⟩

theorem Numeral.head_eq {n : Numeral} (h : n.WellFormed) {c : Char} {s t : List Char}
    (htext : c :: s = n.text ++ t) : c = '-' ∨ c.isDigit := by
  obtain ⟨d, rest, hcons, hd⟩ := exists_cons h
  rw [hcons, List.cons_append] at htext
  rw [(List.cons.inj htext).1]
  exact hd

/-! ## Values -/

/-- The character may go on with a value, or with the blanks behind it. -/
def GoesOn (c : Char) : Prop :=
  IsBlank c ∨ IsNumeric c

instance (c : Char) : Decidable (GoesOn c) :=
  inferInstanceAs (Decidable (_ ∨ _))

/-- No other part of its kind is spelled by the beginning of the text `s`.  A value and an
element have to be ended by what is left behind them. -/
def Part.IsUnique (s t : List Char) : Part → Prop
  | .value x => ∀ y u, Spells (.value y) s u → NoHead IsNumeric t → NoHead IsNumeric u →
    x = y ∧ t = u
  | .element x => ∀ y u, Spells (.element y) s u → NoHead GoesOn t → NoHead GoesOn u →
    x = y ∧ t = u
  | .name k => ∀ l u, Spells (.name l) s u → k = l ∧ t = u
  | .items xs => ∀ ys u, Spells (.items ys) s u → xs = ys ∧ t = u
  | .members ms => ∀ ns u, Spells (.members ns) s u → ms = ns ∧ t = u

/-- A value does not begin with a blank. -/
theorem Spells.noHead_value {x : JsonValue} {s t : List Char} (h : Spells (.value x) s t) :
    NoHead IsBlank s := by
  cases h with
  | number hn htext =>
    obtain ⟨c, rest, hcons, hc⟩ := Numeral.exists_cons hn
    rw [htext, hcons, List.cons_append, noHead_cons]
    rintro (rfl | rfl | rfl | rfl) <;> simp at hc
  | _ => exact noHead_cons.2 (by decide)

theorem Spells.noHead_items {xs : List JsonValue} {s t : List Char}
    (h : Spells (.items xs) s t) : NoHead GoesOn s := by
  cases h <;> exact noHead_cons.2 (by decide)

theorem Spells.noHead_members {ms : List (String × JsonValue)} {s t : List Char}
    (h : Spells (.members ms) s t) : NoHead GoesOn s := by
  cases h <;> exact noHead_cons.2 (by decide)

/-- Blanks are not part of a number. -/
theorem Blanks.noHead_numeric {s t : List Char} (h : Blanks s t) (ht : NoHead GoesOn t) :
    NoHead IsNumeric s := by
  obtain ⟨blanks, hblanks, rfl⟩ := h
  cases blanks with
  | nil => exact ht.mono fun _ => .inr
  | cons c blanks =>
    rw [List.cons_append, noHead_cons]
    obtain rfl | rfl | rfl | rfl := hblanks c List.mem_cons_self <;> decide

/-- A value that begins like a number is one. -/
theorem Spells.exists_numeral {x : JsonValue} {c : Char} {s t : List Char}
    (hc : c = '-' ∨ c.isDigit) (h : Spells (.value x) (c :: s) t) :
    ∃ n : Numeral, n.WellFormed ∧ x = .number n.value ∧ c :: s = n.text ++ t := by
  cases h with
  | number hn htext => exact ⟨_, hn, rfl, htext⟩
  | _ => simp at hc

/-- The end of an array is not the beginning of an item. -/
theorem Spells.not_blanks_bracket {x : JsonValue} {s t u : List Char}
    (h : Spells (.element x) s t) : ¬Blanks s (']' :: u) := by
  intro hblanks
  cases h with
  | element before value after =>
    rw [before.unique hblanks value.noHead_value (noHead_cons.2 (by decide))] at value
    cases value with
    | number hn htext => exact absurd (Numeral.head_eq hn htext) (by decide)

/-- The end of an object is not the beginning of a name. -/
theorem Spells.not_blanks_brace {k : String} {s t u : List Char}
    (h : Spells (.name k) s t) : ¬Blanks s ('\x7d' :: u) := by
  intro hblanks
  cases h with
  | name before string after =>
    rw [before.unique hblanks string.noHead_value (noHead_cons.2 (by decide))] at string
    cases string

section Following

variable {s m m' t u : List Char}

/-- An item and the ones after it. -/
theorem Spells.item_unique {x y : JsonValue} {xs ys : List JsonValue}
    (tail : Spells (.items xs) m t) (hhead : (Part.element x).IsUnique s m)
    (htail : (Part.items xs).IsUnique m t) (head' : Spells (.element y) s m')
    (tail' : Spells (.items ys) m' u) : x = y ∧ xs = ys ∧ t = u := by
  obtain ⟨hx, rfl⟩ := hhead _ _ head' tail.noHead_items tail'.noHead_items
  exact ⟨hx, htail _ _ tail'⟩

/-- A member behind its name and the ones after it. -/
theorem Spells.member_unique {x y : JsonValue} {ms ns : List (String × JsonValue)}
    (tail : Spells (.members ms) m t) (hhead : (Part.element x).IsUnique s m)
    (htail : (Part.members ms).IsUnique m t) (head' : Spells (.element y) s m')
    (tail' : Spells (.members ns) m' u) : x = y ∧ ms = ns ∧ t = u := by
  obtain ⟨hx, rfl⟩ := hhead _ _ head' tail.noHead_members tail'.noHead_members
  exact ⟨hx, htail _ _ tail'⟩

end Following

/-- No two values are spelled by the beginning of one text. -/
theorem Spells.unique {part : Part} {s t : List Char} (h : Spells part s t) :
    part.IsUnique s t := by
  -- The first character of a value rules out all rules but one and the rule for numbers.
  induction h with
  | null =>
    intro y u h' _ _
    cases h' with
    | null => exact ⟨rfl, rfl⟩
    | number hn htext => exact absurd (Numeral.head_eq hn htext) (by decide)
  | true =>
    intro y u h' _ _
    cases h' with
    | true => exact ⟨rfl, rfl⟩
    | number hn htext => exact absurd (Numeral.head_eq hn htext) (by decide)
  | false =>
    intro y u h' _ _
    cases h' with
    | false => exact ⟨rfl, rfl⟩
    | number hn htext => exact absurd (Numeral.head_eq hn htext) (by decide)
  | number hn htext =>
    intro y u h' ht hu
    obtain ⟨c, rest, hcons, hc⟩ := Numeral.exists_cons hn
    rw [hcons, List.cons_append] at htext
    rw [htext] at h'
    obtain ⟨n, hn', rfl, heq⟩ := h'.exists_numeral hc
    rw [← List.cons_append, ← hcons] at heq
    obtain ⟨rfl, rfl⟩ := Numeral.unique hn hn' ht hu heq
    exact ⟨rfl, rfl⟩
  | text h =>
    intro y u h' _ _
    cases h' with
    | number hn htext => exact absurd (Numeral.head_eq hn htext) (by decide)
    | text h' =>
      obtain ⟨hcs, rfl⟩ := h.unique h'
      rw [String.toList_inj.1 hcs]
      exact ⟨rfl, rfl⟩
  | emptyList h =>
    intro y u h' _ _
    cases h' with
    | number hn htext => exact absurd (Numeral.head_eq hn htext) (by decide)
    | emptyList h' => exact ⟨rfl, h.cons_unique (by decide) h'⟩
    | list head' tail' => exact absurd h head'.not_blanks_bracket
  | list head tail ihhead ihtail =>
    intro y u h' _ _
    cases h' with
    | number hn htext => exact absurd (Numeral.head_eq hn htext) (by decide)
    | emptyList h' => exact absurd h' head.not_blanks_bracket
    | list head' tail' =>
      obtain ⟨rfl, rfl, rfl⟩ := tail.item_unique ihhead ihtail head' tail'
      exact ⟨rfl, rfl⟩
  | emptyObject h =>
    intro y u h' _ _
    cases h' with
    | number hn htext => exact absurd (Numeral.head_eq hn htext) (by decide)
    | emptyObject h' => exact ⟨rfl, h.cons_unique (by decide) h'⟩
    | object name' => exact absurd h name'.not_blanks_brace
  | object name head tail ihname ihhead ihtail =>
    intro y u h' _ _
    cases h' with
    | number hn htext => exact absurd (Numeral.head_eq hn htext) (by decide)
    | emptyObject h' => exact absurd h' name.not_blanks_brace
    | object name' head' tail' =>
      obtain ⟨rfl, rfl⟩ := ihname _ _ name'
      obtain ⟨rfl, rfl, rfl⟩ := tail.member_unique ihhead ihtail head' tail'
      exact ⟨rfl, rfl⟩
  | element before value after ih =>
    intro y u h' ht hu
    cases h' with
    | element before' value' after' =>
      obtain rfl := before.unique before' value.noHead_value value'.noHead_value
      obtain ⟨rfl, rfl⟩ := ih _ _ value' (after.noHead_numeric ht) (after'.noHead_numeric hu)
      exact ⟨rfl, after.unique after' (ht.mono fun _ => .inl) (hu.mono fun _ => .inl)⟩
  | name before string after ih =>
    intro l u h'
    cases h' with
    | name before' string' after' =>
      obtain rfl := before.unique before' string.noHead_value string'.noHead_value
      have hcolon {t : List Char} : NoHead GoesOn (':' :: t) := noHead_cons.2 (by decide)
      obtain ⟨hk, rfl⟩ := ih _ _ string' (after.noHead_numeric hcolon)
        (after'.noHead_numeric hcolon)
      exact ⟨JsonValue.text.inj hk, after.cons_unique (by decide) after'⟩
  | endItems =>
    intro ys u h'
    cases h'
    exact ⟨rfl, rfl⟩
  | nextItem head tail ihhead ihtail =>
    intro ys u h'
    cases h' with
    | nextItem head' tail' =>
      obtain ⟨rfl, rfl, rfl⟩ := tail.item_unique ihhead ihtail head' tail'
      exact ⟨rfl, rfl⟩
  | endMembers =>
    intro ns u h'
    cases h'
    exact ⟨rfl, rfl⟩
  | nextMember name head tail ihname ihhead ihtail =>
    intro ns u h'
    cases h' with
    | nextMember name' head' tail' =>
      obtain ⟨rfl, rfl⟩ := ihname _ _ name'
      obtain ⟨rfl, rfl, rfl⟩ := tail.member_unique ihhead ihtail head' tail'
      exact ⟨rfl, rfl⟩

/-- A text is the spelling of one value at most. -/
theorem IsDocument.unique {text : String} {x y : JsonValue} (h : IsDocument text x)
    (h' : IsDocument text y) : x = y :=
  (Spells.unique h y [] h' noHead_nil noHead_nil).1

end ShaderIntake.Json
