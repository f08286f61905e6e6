import ShaderIntake.Proofs.CommandLine.Judging
import ShaderIntake.Proofs.CommandLine.Size

/-!
# Arguments in any order

The arguments of an inspection are its path, its number in one of its spellings and in one of two
forms, and its flags.  `Asks` relates an inspection to the items that ask for it, in any order and
each at most once; the number may be left out where it is the default.

Arguments that say such items are accepted, and mean the inspection.  With one item too many, or
with a number that cannot be read, they are refused, and the error does not depend on the order,
but for one case: an empty path that stands in front of an option is refused for being empty, and
a path behind that option is not looked at.
-/

namespace ShaderIntake

/-- The flags of an inspection, as items. -/
def Args.flags (args : Args) : List CommandLine.Item :=
  (if args.structuralMd5 then [.structuralMd5] else []) ++ (if args.json then [.json] else [])

namespace CommandLine

open Progress

/-! ## Items that are sound -/

theorem IsDecimal.unhyphened {text : String} (h : IsDecimal text.toList) : Unhyphened text := by
  obtain ⟨sign, digits, hsign, hdigits, htext⟩ := h
  rw [Unhyphened, htext]
  rcases hsign with rfl | rfl
  · obtain ⟨c, rest, rfl⟩ := List.exists_cons_of_ne_nil hdigits.1
    rintro ⟨⟩
    exact absurd (hdigits.2 '-' (List.mem_cons_self ..)) (by decide)
  · rintro ⟨⟩

theorem fault?_limit_of_spells {size : String} {n : Nat} (hspells : Spells size.toList n)
    (hfits : n < Size.limit) (attached : Bool) : (Item.limit attached size).fault? = none := by
  rw [Item.fault?, hspells.parseSize?, if_pos hfits]
  rfl

theorem isPlain_insert {front back : List Item} {x : Item} (hx : x.IsPlain)
    (hothers : ∀ y ∈ front ++ back, y.IsPlain) : ∀ y ∈ front ++ x :: back, y.IsPlain := by
  rw [List.forall_mem_append] at hothers ⊢
  rw [List.forall_mem_cons]
  exact ⟨hothers.1, hx, hothers.2⟩

theorem isPlain_limit {size : String} (h : Unhyphened size) (attached : Bool) :
    (Item.limit attached size).IsPlain := by
  cases attached with
  | false => exact h
  | true => trivial

/-- An option, with a number that can be read if it has one. -/
def Item.IsOption : Item → Prop
  | path _ => False
  | limit _ size => ∃ n, Spells size.toList n ∧ n < Size.limit
  | structuralMd5 => True
  | json => True

theorem Item.IsOption.slot_ne {x : Item} (h : x.IsOption) : x.slot ≠ .path := by
  cases x with
  | path text => exact h.elim
  | _ => exact Slot.noConfusion

theorem Item.IsOption.isPlain {x : Item} (h : x.IsOption) : x.IsPlain := by
  cases x with
  | path text => exact h.elim
  | limit attached size =>
    obtain ⟨n, hspells, -⟩ := h
    exact isPlain_limit hspells.isDecimal.unhyphened attached
  | _ => trivial

theorem Item.IsOption.fault?_eq {x : Item} (h : x.IsOption) : x.fault? = none := by
  cases x with
  | path text => exact h.elim
  | limit attached size =>
    obtain ⟨n, hspells, hfits⟩ := h
    exact fault?_limit_of_spells hspells hfits attached
  | _ => rfl

/-! ## Items that ask for an inspection -/

/-- A path that can be asked for without the separator. -/
def IsInput (text : String) : Prop :=
  text ≠ "" ∧ Unhyphened text

/-- The items ask for the inspection, in any order. -/
inductive Asks (args : Args) (items : List Item) : Prop where
  | byDefault (size : args.maxBlobBytes = defaultMaxBlobBytes)
    (perm : items.Perm (.path args.input :: args.flags))
  | withSize (attached : Bool) (size : String) (spells : Spells size.toList args.maxBlobBytes)
    (fits : args.maxBlobBytes < Size.limit)
    (perm : items.Perm (.path args.input :: .limit attached size :: args.flags))

section Asks

variable {args : Args} {items front back : List Item} {x : Item}

theorem isOption_of_mem_flags (h : x ∈ args.flags) : x.IsOption := by
  rw [Args.flags, List.mem_append, List.mem_ite_nil_right, List.mem_ite_nil_right,
    List.mem_singleton, List.mem_singleton] at h
  rcases h with ⟨-, rfl⟩ | ⟨-, rfl⟩
  · trivial
  · trivial

/-- All items but one are options. -/
theorem Asks.mem_cases (h : Asks args items) (hx : x ∈ items) :
    x = .path args.input ∨ x.IsOption := by
  cases h with
  | byDefault size perm =>
    rcases List.mem_cons.1 (perm.mem_iff.1 hx) with rfl | hflag
    · exact .inl rfl
    · exact .inr (isOption_of_mem_flags hflag)
  | withSize attached size spells fits perm =>
    rcases List.mem_cons.1 (perm.mem_iff.1 hx) with rfl | hoption
    · exact .inl rfl
    · rcases List.mem_cons.1 hoption with rfl | hflag
      · exact .inr ⟨args.maxBlobBytes, spells, fits⟩
      · exact .inr (isOption_of_mem_flags hflag)

theorem Asks.isPlain (h : Asks args items) (hinput : IsInput args.input) :
    ∀ x ∈ items, x.IsPlain := by
  intro x hx
  rcases h.mem_cases hx with rfl | hoption
  · exact hinput.2
  · exact hoption.isPlain

theorem nodup_slots (args : Args) (attached : Bool) (size : String) :
    ((.path args.input :: .limit attached size :: args.flags).map Item.slot).Nodup := by
  obtain ⟨_, _, structuralMd5, json⟩ := args
  cases structuralMd5 <;> cases json <;> simp [Args.flags, Item.slot]

/-- Every item is about something else. -/
theorem Asks.once (h : Asks args items) : (items.map Item.slot).Nodup := by
  cases h with
  | byDefault size perm =>
    rw [(perm.map Item.slot).nodup_iff]
    exact (((List.sublist_cons_self _ _).cons_cons _).map Item.slot).nodup
      (nodup_slots args false "")
  | withSize attached size spells fits perm =>
    rw [(perm.map Item.slot).nodup_iff]
    exact nodup_slots args attached size

theorem Asks.sound (h : Asks args items) (hinput : IsInput args.input) : Sound items where
  once := h.once
  faultless x hx := by
    rcases h.mem_cases hx with rfl | hoption
    · exact if_neg hinput.1
    · exact hoption.fault?_eq

theorem Asks.mem_path (h : Asks args items) : .path args.input ∈ items := by
  cases h with
  | byDefault size perm => exact perm.mem_iff.2 (List.mem_cons_self ..)
  | withSize attached size spells fits perm => exact perm.mem_iff.2 (List.mem_cons_self ..)

/-- The order that the items are recorded in does not count. -/
theorem Asks.answer_eq (h : Asks args items) : (items.foldl record start).answer = .ok args := by
  have honce := h.once
  obtain ⟨input, maxBlobBytes, structuralMd5, json⟩ := args
  cases h with
  | byDefault size perm =>
    obtain rfl : maxBlobBytes = defaultMaxBlobBytes := size
    rw [foldl_record_perm perm honce]
    cases structuralMd5 <;> cases json <;> rfl
  | withSize attached size spells fits perm =>
    have hread := spells.parseSize?.trans (if_pos fits)
    rw [foldl_record_perm perm honce]
    cases structuralMd5 <;> cases json <;>
      simp [Args.flags, record, start, answer, hread] <;> rfl

theorem Asks.count_path (h : Asks args items) : (items.map Item.slot).count .path ≤ 1 :=
  List.nodup_iff_count_le_one.1 h.once .path

theorem Asks.slot_path_notMem (h : Asks args (front ++ back)) (hfront : .path args.input ∉ front) :
    .path ∉ front.map Item.slot := by
  intro hmem
  obtain ⟨x, hx, hslot⟩ := List.mem_map.1 hmem
  rcases h.mem_cases (List.mem_append_left back hx) with rfl | hoption
  · exact hfront hx
  · exact hoption.slot_ne hslot

end Asks

/-! ## One item too many -/

section Parse

variable {args : Args} {items front back : List Item} {x : Item} {words : List String}

/-- Every order is accepted. -/
theorem parse_asked (hinput : IsInput args.input) (h : Asks args items)
    (hwords : Says items words) : parse words = .ok args := by
  rw [parse_of_sound hwords (h.isPlain hinput) (h.sound hinput), h.answer_eq]

/-- A repeated option is a conflict where the option comes for the second time. -/
theorem parse_repeated (hinput : IsInput args.input) (h : Asks args (front ++ back))
    (hx : x.IsOption) (hused : x.slot ∈ (front ++ back).map Item.slot)
    (hwords : Says (front ++ x :: back) words) : parse words = .error .argumentConflict := by
  have hagain : x.slot.again = .argumentConflict := by
    cases x with
    | path text => exact hx.elim
    | _ => rfl
  have hplain := isPlain_insert hx.isPlain (h.isPlain hinput)
  have hpaths : ((front ++ x :: back).map Item.slot).count .path ≤ 1 := by
    have hcount := h.count_path
    rw [List.map_append, List.count_append] at hcount ⊢
    rwa [List.map_cons, List.count_cons_of_ne hx.slot_ne]
  rw [← hagain]
  rw [List.map_append, List.mem_append] at hused
  rcases hused with hfront | hback
  · exact parse_again hwords hplain hpaths (h.sound hinput).of_append_left hfront
  · obtain ⟨y, hy, hslot⟩ := List.mem_map.1 hback
    obtain ⟨between, rest, rfl⟩ := List.append_of_mem hy
    have hbefore := (h.sound hinput).insert_before hslot.symm hx.fault?_eq
    rw [← List.cons_append, ← List.append_assoc] at hwords hplain hpaths
    rw [← hslot]
    exact parse_again hwords hplain hpaths hbefore (slot_mem_insert hslot.symm)

/-- A second path is refused where it comes, unless the first is empty and an option follows. -/
theorem parse_two_paths (hinput : IsInput args.input) (h : Asks args (front ++ back))
    {text : String} (htext : Unhyphened text)
    (hlast : text ≠ "" ∨ .path args.input ∈ front ∨ back.head? = some (.path args.input))
    (hwords : Says (front ++ .path text :: back) words) :
    parse words = .error .unknownArgument := by
  have hplain := isPlain_insert (x := .path text) htext (h.isPlain hinput)
  have hsound := (h.sound hinput).of_append_left
  by_cases hfront : .path args.input ∈ front
  · exact parse_secondPath hwords hplain hsound (List.mem_map_of_mem hfront)
  · have hback := (List.mem_append.1 h.mem_path).resolve_left hfront
    by_cases hempty : text = ""
    · subst hempty
      have hhead := (hlast.resolve_left fun hne => hne rfl).resolve_left hfront
      obtain ⟨rest, rfl⟩ := List.head?_eq_some_iff.1 hhead
      exact parse_emptyPath hwords hplain hsound (h.slot_path_notMem hfront)
    · obtain ⟨between, rest, rfl⟩ := List.append_of_mem hback
      have hbefore := (h.sound hinput).insert_before (x := .path text) rfl (if_neg hempty)
      rw [← List.cons_append, ← List.append_assoc] at hwords hplain
      exact parse_secondPath hwords hplain hbefore (slot_mem_insert rfl)

/-- An empty path in front of an option is refused for being empty. -/
theorem parse_empty_path (hinput : IsInput args.input) (h : Asks args (front ++ back))
    (hfront : .path args.input ∉ front) (hback : back.head? ≠ some (.path args.input))
    (hwords : Says (front ++ .path "" :: back) words) : parse words = .error .invalidValue := by
  have hmem := (List.mem_append.1 h.mem_path).resolve_left hfront
  obtain ⟨x, rest, rfl⟩ := List.exists_cons_of_ne_nil (List.ne_nil_of_mem hmem)
  have hempty : Unhyphened "" := by decide
  have hplain := isPlain_insert (x := .path "") hempty (h.isPlain hinput)
  have hoption : x.IsOption := by
    refine (h.mem_cases (List.mem_append_right front (List.mem_cons_self ..))).resolve_left ?_
    rintro rfl
    exact hback rfl
  rw [parse_emptyPath hwords hplain (h.sound hinput).of_append_left (h.slot_path_notMem hfront),
    if_neg hoption.slot_ne]

/-- A number that cannot be read is refused where it is judged. -/
theorem parse_unreadable (hinput : IsInput args.input) {attached : Bool} {size value : String}
    (h : Asks args (front ++ .limit attached size :: back)) (hvalue : Unhyphened value)
    (hbad : ¬IsDecimal value.toList ∨ ∃ n, Spells value.toList n ∧ Size.limit ≤ n)
    (hwords : Says (front ++ .limit attached value :: back) words) :
    parse words = .error .valueValidation := by
  obtain ⟨hsound, hnew, -⟩ := sound_insert_iff.1 (h.sound hinput)
  have hfault : (Item.limit attached value).fault? = some .valueValidation := by
    rw [Item.fault?, parseSize?_eq_none hbad]
    rfl
  have hpaths := h.count_path
  rw [List.map_append, List.map_cons] at hpaths
  have hplain := h.isPlain hinput
  rw [List.forall_mem_append, List.forall_mem_cons] at hplain
  obtain ⟨hfront, -, hback⟩ := hplain
  refine parse_fault hwords (isPlain_insert (isPlain_limit hvalue attached)
    (List.forall_mem_append.2 ⟨hfront, hback⟩)) ?_ hsound.of_append_left ?_ hfault
  · rwa [List.map_append, List.map_cons]
  · intro hmem
    rw [List.map_append, List.mem_append] at hnew
    exact hnew (.inl hmem)

/-! ## The order of arguments -/

/-- Arguments mean the same in every order, and in every order one item too many, or a number
that cannot be read, is refused in the same way.  An empty second path is the exception. -/
theorem parse_in_any_order (args : Args) (hinput : IsInput args.input) :
    (∀ items words, Asks args items → Says items words → parse words = .ok args) ∧
    (∀ front back x words, Asks args (front ++ back) → x.IsOption →
      x.slot ∈ (front ++ back).map Item.slot → Says (front ++ x :: back) words →
      parse words = .error .argumentConflict) ∧
    (∀ front back text words, Asks args (front ++ back) → Unhyphened text →
      text ≠ "" ∨ .path args.input ∈ front ∨ back.head? = some (.path args.input) →
      Says (front ++ .path text :: back) words → parse words = .error .unknownArgument) ∧
    (∀ front back words, Asks args (front ++ back) → .path args.input ∉ front →
      back.head? ≠ some (.path args.input) → Says (front ++ .path "" :: back) words →
      parse words = .error .invalidValue) ∧
    (∀ front back attached size value words, Asks args (front ++ .limit attached size :: back) →
      Unhyphened value →
      ¬IsDecimal value.toList ∨ (∃ n, Spells value.toList n ∧ Size.limit ≤ n) →
      Says (front ++ .limit attached value :: back) words →
      parse words = .error .valueValidation) := by
  refine ⟨?accepted, ?repeated, ?second, ?empty, ?unreadable⟩
  case accepted =>
    intro items words h hwords
    exact parse_asked hinput h hwords
  case repeated =>
    intro front back x words h hx hused hwords
    exact parse_repeated hinput h hx hused hwords
  case second =>
    intro front back text words h htext hlast hwords
    exact parse_two_paths hinput h htext hlast hwords
  case empty =>
    intro front back words h hfront hback hwords
    exact parse_empty_path hinput h hfront hback hwords
  case unreadable =>
    intro front back attached size value words h hvalue hbad hwords
    exact parse_unreadable hinput h hvalue hbad hwords

/-- With a plus sign and zeros, and the path behind the separator; an option given in both forms;
a second path, and an empty one; and the first number that is too large. -/
theorem parse_in_any_order_lines :
    IsInput "in" ∧
    parse ["--max-blob-bytes", "+0016", "--json", "--", "in"] = .ok ⟨"in", 16, false, true⟩ ∧
    parse ["--max-blob-bytes", "16", "in", "--json", "--max-blob-bytes=7"] =
      .error .argumentConflict ∧
    parse ["in", "--json", "--max-blob-bytes", "16", "other"] = .error .unknownArgument ∧
    parse ["", "--max-blob-bytes", "16", "--json", "in"] = .error .invalidValue ∧
    parse ["--max-blob-bytes", "18446744073709551616", "in", "--json"] =
      .error .valueValidation := by
  have hinput : IsInput "in" := ⟨by decide, by decide⟩
  obtain ⟨haccepted, hrepeated, hsecond, hempty, hunreadable⟩ :=
    parse_in_any_order ⟨"in", 16, false, true⟩ hinput
  have hzeros : Spells "+0016".toList 16 := ⟨['+'], 2, .inr rfl, by decide⟩
  have hplain : Spells "16".toList 16 := ⟨[], 0, .inl rfl, by decide⟩
  have hseven : Spells "7".toList 7 := ⟨[], 0, .inl rfl, by decide⟩
  have hlarge : Spells "18446744073709551616".toList Size.limit := ⟨[], 0, .inl rfl, by decide⟩
  refine ⟨hinput, ?_, ?_, ?_, ?_, ?_⟩
  · exact haccepted [.limit false "+0016", .json, .path "in"] _
      (.withSize false "+0016" hzeros (by decide) (by decide))
      (.separated [.limit false "+0016", .json] ["in"])
  · exact hrepeated [.limit false "16", .path "in", .json] [] (.limit true "7") _
      (.withSize false "16" hplain (by decide) (by decide)) ⟨7, hseven, by decide⟩ (by decide)
      (.direct [.limit false "16", .path "in", .json, .limit true "7"])
  · exact hsecond [.path "in", .json, .limit false "16"] [] "other" _
      (.withSize false "16" hplain (by decide) (by decide)) (by decide) (.inl (by decide))
      (.direct [.path "in", .json, .limit false "16", .path "other"])
  · exact hempty [] [.limit false "16", .json, .path "in"] _
      (.withSize false "16" hplain (by decide) (by decide)) (by decide) (by decide)
      (.direct [.path "", .limit false "16", .json, .path "in"])
  · exact hunreadable [] [.path "in", .json] false "16" "18446744073709551616" _
      (.withSize false "16" hplain (by decide) (by decide)) (by decide)
      (.inr ⟨Size.limit, hlarge, Nat.le_refl _⟩)
      (.direct [.limit false "18446744073709551616", .path "in", .json])

/-- An empty path in front of a flag is not refused as one path too many. -/
theorem empty_path_is_no_unknownArgument :
    ¬∀ (args : Args) (front back : List Item) (text : String) (words : List String),
      IsInput args.input → Asks args (front ++ back) → Unhyphened text →
      Says (front ++ .path text :: back) words → parse words = .error .unknownArgument := by
  intro h
  have hsecond : parse ["", "--json", "in"] = .error .unknownArgument :=
    h ⟨"in", defaultMaxBlobBytes, false, true⟩ [] [.json, .path "in"] "" _
      ⟨by decide, by decide⟩ (.byDefault rfl (by decide)) (by decide)
      (.direct [.path "", .json, .path "in"])
  exact absurd hsecond (by decide)

end Parse

end CommandLine

end ShaderIntake
