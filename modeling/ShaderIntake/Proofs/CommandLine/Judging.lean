import Mathlib.Data.List.Nodup
import ShaderIntake.Proofs.CommandLine.Items

/-!
# Items judged one by one

An item may leave something pending, and then the fault of one item is only found at the next.
`Progress.commit` judges an item at once: it is refused where another item about the same was
there before, or for a fault of its own, and recorded otherwise.

Where no second path comes, both ways come to the same in the end: for one item by
`addItem_settle`, and for all by `addItems_settle`.  A second path is the exception.  It is
refused at once, even where the first is not judged yet.

Items about different things can be recorded in any order (`foldl_record_perm`), and the first
item that is refused decides the error (`parse_again`, `parse_fault`, `parse_secondPath`).
-/

namespace ShaderIntake.CommandLine

/-- What is wrong with an item by itself. -/
def Item.fault? : Item → Option ArgError
  | path text => if text = "" then some .invalidValue else none
  | limit _ size => if (parseSize? size.toList).isSome then none else some .valueValidation
  | _ => none

/-- How a second item about the same is refused. -/
def Slot.again : Slot → ArgError
  | .path => .unknownArgument
  | _ => .argumentConflict

namespace Progress

/-- The item that is about this was there before, judged. -/
def uses (p : Progress) : Slot → Bool
  | .path => p.input.isSome
  | .limit => p.maxBlobBytes.isSome
  | .structuralMd5 => p.structuralMd5
  | .json => p.json

/-- What a sound item says. -/
def record (p : Progress) : Item → Progress
  | .path text => { p with input := some text }
  | .limit _ size => { p with maxBlobBytes := parseSize? size.toList }
  | .structuralMd5 => { p with structuralMd5 := true }
  | .json => { p with json := true }

/-- Judges an item at once. -/
def commit (p : Progress) (x : Item) : Except ArgError Progress :=
  if p.uses x.slot then .error x.slot.again
  else match x.fault? with
    | some e => .error e
    | none => .ok (p.record x)

variable {p q : Progress} {x : Item} {items : List Item}

theorem commit_of_uses (h : p.uses x.slot = true) : p.commit x = .error x.slot.again :=
  if_pos h

theorem commit_of_fault {e : ArgError} (hfree : p.uses x.slot = false) (h : x.fault? = some e) :
    p.commit x = .error e := by
  rw [commit, if_neg (Bool.eq_false_iff.1 hfree), h]

theorem commit_of_sound (hfree : p.uses x.slot = false) (h : x.fault? = none) :
    p.commit x = .ok (p.record x) := by
  rw [commit, if_neg (Bool.eq_false_iff.1 hfree), h]

/-- The number of an option, attached or not, is judged where it is the option's turn. -/
theorem setLimit_eq_commit (p : Progress) (attached : Bool) (size : String) :
    p.setLimit size.toList = p.commit (.limit attached size) := by
  unfold setLimit
  split
  · rename_i hsome
    exact (commit_of_uses (x := .limit attached size) hsome).symm
  · rename_i hfree
    rw [Bool.not_eq_true] at hfree
    split
    · rename_i n hread
      have hsound : (Item.limit attached size).fault? = none := by rw [Item.fault?, hread]; rfl
      rw [commit_of_sound (x := .limit attached size) hfree hsound, record, hread]
    · rename_i hread
      have hfault : (Item.limit attached size).fault? = some .valueValidation := by
        rw [Item.fault?, hread]
        rfl
      rw [commit_of_fault (x := .limit attached size) hfree hfault]

/-- An item where nothing is pending, and then judged. -/
theorem put_settle (hpending : p.pending = .nothing) (hinput : x.slot = .path → p.input = none) :
    (p.put x >>= settle) = p.commit x := by
  obtain ⟨pending, input, maxBlobBytes, structuralMd5, json⟩ := p
  obtain rfl : pending = .nothing := hpending
  cases x with
  | path text =>
    obtain rfl : input = none := hinput rfl
    by_cases hempty : text = ""
    · rw [commit_of_fault (x := .path text) rfl (if_pos hempty)]
      exact if_pos hempty
    · rw [commit_of_sound (x := .path text) rfl (if_neg hempty)]
      exact if_neg hempty
  | limit attached size =>
    rw [← setLimit_eq_commit]
    cases attached with
    | false => rfl
    | true =>
      refine (bind_congr_of_ok fun q hq => ?_).trans (bind_pure _)
      exact settle_of_pending (congrArg pending (setLimit_eq_ok hq))
  | structuralMd5 => cases structuralMd5 <;> rfl
  | json => cases json <;> rfl

theorem input_of_hasPath (h : p.hasPath = false) : p.input = none :=
  Option.not_isSome_iff_eq_none.1 (Bool.eq_false_iff.1 (Bool.or_eq_false_iff.1 h).1)

/-- One item: what is pending is judged, and then the item. -/
theorem addItem_settle (h : x.slot = .path → p.hasPath = false) :
    (p.addItem x >>= settle) = p.settle >>= fun q => q.commit x := by
  have hfirst : ¬(x.slot = .path ∧ p.hasPath) :=
    fun hsecond => Bool.eq_false_iff.1 (h hsecond.1) hsecond.2
  rw [addItem, if_neg hfirst, bind_assoc]
  refine bind_congr_of_ok fun q hq => put_settle (pending_of_settle hq) fun hslot => ?_
  exact input_of_hasPath ((hasPath_of_settle hq).trans (h hslot))

theorem hasPath_of_pending (hpending : p.pending = .nothing) : p.hasPath = p.input.isSome := by
  rw [hasPath, hpending, Bool.or_false]

/-- An item brings one path or none. -/
theorem hasPath_of_addItem (h : p.addItem x = .ok q) :
    q.hasPath.toNat = p.hasPath.toNat + [x.slot].count .path := by
  unfold addItem at h
  split at h
  · cases h
  · rename_i hfirst
    obtain ⟨p', hsettle, hput⟩ := bind_eq_ok.1 h
    rw [← hasPath_of_settle hsettle] at hfirst ⊢
    have hbefore := hasPath_of_pending (pending_of_settle hsettle)
    obtain ⟨text, rfl, rfl⟩ | ⟨_, rfl, rfl⟩ | ⟨_, rfl, rfl⟩ | ⟨rfl, rfl⟩ | ⟨rfl, rfl⟩ :=
      put_cases hput
    · have hfree : p'.hasPath = false := Bool.eq_false_iff.2 fun hpath => hfirst ⟨rfl, hpath⟩
      have hafter : hasPath { p' with pending := .path text } = true := Bool.or_true _
      rw [hfree, hafter]
      rfl
    · rw [hbefore]
      exact congrArg Bool.toNat (Bool.or_false _)
    all_goals rfl

/-- All items: where no second path comes, they can be judged one after the other. -/
theorem addItems_settle (h : p.hasPath.toNat + (items.map Item.slot).count .path ≤ 1) :
    (items.foldlM addItem p >>= settle) = p.settle >>= fun q => items.foldlM commit q := by
  induction items generalizing p with
  | nil =>
    change p.settle = p.settle >>= pure
    rw [bind_pure]
  | cons x items ih =>
    rw [List.map_cons, ← List.singleton_append, List.count_append] at h
    have hfirst : x.slot = .path → p.hasPath = false := by
      intro hslot
      rw [hslot, List.count_singleton_self] at h
      exact Bool.toNat_eq_zero.1 (by omega)
    calc ((x :: items).foldlM addItem p >>= settle)
        = p.addItem x >>= fun q => items.foldlM addItem q >>= settle := by
          rw [List.foldlM_cons, bind_assoc]
      _ = p.addItem x >>= fun q => q.settle >>= fun r => items.foldlM commit r :=
          bind_congr_of_ok fun q hq => ih (by rw [hasPath_of_addItem hq]; omega)
      _ = (p.settle >>= fun q => q.commit x) >>= fun r => items.foldlM commit r := by
          rw [← bind_assoc, addItem_settle hfirst]
      _ = p.settle >>= fun q => (x :: items).foldlM commit q := by
          rw [bind_assoc]
          exact bind_congr fun q => List.foldlM_cons.symm

theorem addItems_settle_start (h : (items.map Item.slot).count .path ≤ 1) :
    (items.foldlM addItem start >>= settle) = items.foldlM commit start := by
  have hpaths : start.hasPath.toNat + (items.map Item.slot).count .path ≤ 1 := by
    rwa [show start.hasPath.toNat = 0 from rfl, Nat.zero_add]
  rw [addItems_settle hpaths, settle_of_pending rfl, ok_bind]

/-! ## What was recorded -/

theorem uses_record (h : x.fault? = none) (s : Slot) :
    (p.record x).uses s = (p.uses s || decide (s = x.slot)) := by
  cases x with
  | path text => cases s <;> simp [record, uses, Item.slot]
  | limit attached size =>
    have hread : (parseSize? size.toList).isSome = true := by
      by_contra hnone
      rw [Item.fault?, if_neg hnone] at h
      cases h
    cases s <;> simp [record, uses, Item.slot, hread]
  | structuralMd5 => cases s <;> simp [record, uses, Item.slot]
  | json => cases s <;> simp [record, uses, Item.slot]

theorem uses_foldl_record (h : ∀ x ∈ items, x.fault? = none) (s : Slot) :
    (items.foldl record p).uses s = (p.uses s || decide (s ∈ items.map Item.slot)) := by
  induction items generalizing p with
  | nil => simp
  | cons x items ih =>
    rw [List.forall_mem_cons] at h
    rw [List.foldl_cons, ih h.2, uses_record h.1, List.map_cons, Bool.or_assoc]
    simp only [List.mem_cons, Bool.decide_or]

theorem record_comm {y : Item} (h : x.slot ≠ y.slot) (p : Progress) :
    (p.record x).record y = (p.record y).record x := by
  cases x with
  | path text => cases y with
    | path text' => exact absurd rfl h
    | _ => rfl
  | limit attached size => cases y with
    | limit attached' size' => exact absurd rfl h
    | _ => rfl
  | structuralMd5 => cases y with
    | structuralMd5 => exact absurd rfl h
    | _ => rfl
  | json => cases y with
    | json => exact absurd rfl h
    | _ => rfl

/-- Items about different things can be recorded in any order. -/
theorem foldl_record_perm {items' : List Item} (hperm : items.Perm items')
    (honce : (items.map Item.slot).Nodup) (p : Progress) :
    items.foldl record p = items'.foldl record p := by
  refine hperm.foldl_eq' (fun x hx y hy q => ?_) p
  by_cases hslot : x.slot = y.slot
  · rw [List.inj_on_of_nodup_map honce hx hy hslot]
  · exact record_comm hslot q

end Progress

/-- The items are about different things, and nothing is wrong with any of them. -/
structure Sound (items : List Item) : Prop where
  once : (items.map Item.slot).Nodup
  faultless : ∀ x ∈ items, x.fault? = none

theorem Sound.of_append_left {front back : List Item} (h : Sound (front ++ back)) :
    Sound front where
  once := (List.nodup_append.1 (List.map_append ▸ h.once)).1
  faultless x hx := h.faultless x (List.mem_append_left back hx)

/-- An item is sound among sound items if it is about something else. -/
theorem sound_insert_iff {front back : List Item} {x : Item} :
    Sound (front ++ x :: back) ↔
      Sound (front ++ back) ∧ x.slot ∉ (front ++ back).map Item.slot ∧ x.fault? = none := by
  have hperm : (front ++ x :: back).Perm (x :: (front ++ back)) := List.perm_middle
  have honce := (hperm.map Item.slot).nodup_iff
  rw [List.map_cons, List.nodup_cons] at honce
  constructor
  · rintro ⟨hnodup, hfaultless⟩
    obtain ⟨hnew, hothers⟩ := honce.1 hnodup
    exact ⟨⟨hothers, fun y hy => hfaultless y (hperm.mem_iff.2 (List.mem_cons_of_mem x hy))⟩, hnew,
      hfaultless x (hperm.mem_iff.2 (List.mem_cons_self ..))⟩
  · rintro ⟨⟨hothers, hfaultless⟩, hnew, hfault⟩
    refine ⟨honce.2 ⟨hnew, hothers⟩, fun y hy => ?_⟩
    rcases List.mem_cons.1 (hperm.mem_iff.1 hy) with rfl | hother
    · exact hfault
    · exact hfaultless y hother

/-- An item may come before another one that is about the same. -/
theorem Sound.insert_before {front between rest : List Item} {x y : Item}
    (h : Sound (front ++ (between ++ y :: rest))) (hslot : x.slot = y.slot)
    (hfault : x.fault? = none) : Sound (front ++ x :: between) := by
  rw [← List.append_assoc] at h
  obtain ⟨hothers, hnew, -⟩ := sound_insert_iff.1 h
  refine sound_insert_iff.2 ⟨hothers.of_append_left, fun hmem => hnew ?_, hfault⟩
  rw [← hslot, List.map_append, List.mem_append]
  exact .inl hmem

theorem slot_mem_insert {front back : List Item} {x y : Item} (hslot : x.slot = y.slot) :
    y.slot ∈ (front ++ x :: back).map Item.slot :=
  hslot ▸ List.mem_map_of_mem (List.mem_append_right front (List.mem_cons_self ..))

namespace Progress

variable {p : Progress} {x : Item} {items front back : List Item}

/-- Sound items are recorded. -/
theorem commitAll_of_sound (h : Sound items) (hfree : ∀ x ∈ items, p.uses x.slot = false) :
    items.foldlM commit p = .ok (items.foldl record p) := by
  induction items generalizing p with
  | nil => rfl
  | cons x items ih =>
    obtain ⟨honce, hfaultless⟩ := h
    rw [List.map_cons, List.nodup_cons] at honce
    rw [List.forall_mem_cons] at hfaultless hfree
    rw [List.foldlM_cons, commit_of_sound hfree.1 hfaultless.1, ok_bind, List.foldl_cons]
    refine ih ⟨honce.2, hfaultless.2⟩ fun y hy => ?_
    have hslot : y.slot ≠ x.slot := fun heq => honce.1 (heq ▸ List.mem_map_of_mem hy)
    rw [uses_record hfaultless.1, hfree.2 y hy, Bool.false_or, decide_eq_false hslot]

theorem uses_start (s : Slot) : start.uses s = false := by
  cases s <;> rfl

theorem commitAll_append (h : Sound front) :
    (front ++ back).foldlM commit start = back.foldlM commit (front.foldl record start) := by
  rw [List.foldlM_append, commitAll_of_sound h fun x _ => uses_start x.slot, ok_bind]

/-- Sound items one after the other: all but the last are judged, and it has no fault. -/
theorem addItems_of_sound (h : Sound front) :
    ∃ p, front.foldlM addItem start = .ok p ∧ p.settle = .ok (front.foldl record start) ∧
      p.hasPath = decide (.path ∈ front.map Item.slot) := by
  have hrun := addItems_settle_start (List.nodup_iff_count_le_one.1 h.once .path)
  rw [commitAll_of_sound h fun x _ => uses_start x.slot] at hrun
  obtain ⟨p, hp, hsettle⟩ := bind_eq_ok.1 hrun
  refine ⟨p, hp, hsettle, ?_⟩
  have huses := uses_foldl_record (p := start) h.faultless .path
  rw [uses_start, Bool.false_or] at huses
  rw [← hasPath_of_settle hsettle, hasPath_of_pending (pending_of_settle hsettle), ← huses]
  rfl

/-- The inspection that is asked for, once all is judged. -/
def answer (p : Progress) : Except ArgError Args :=
  match p.input with
  | some input =>
    return ⟨input, p.maxBlobBytes.getD defaultMaxBlobBytes, p.structuralMd5, p.json⟩
  | none => .error .missingRequiredArgument

theorem finish_eq (p : Progress) : p.finish = p.settle >>= answer :=
  rfl

end Progress

/-! ## Arguments as a whole -/

section Arguments

open Progress

variable {items front back : List Item} {x : Item} {words : List String}

/-- Where no second path comes, the items can be judged one by one. -/
theorem parse_eq_commitAll (hwords : Says items words) (hplain : ∀ x ∈ items, x.IsPlain)
    (hpaths : (items.map Item.slot).count .path ≤ 1) :
    parse words = items.foldlM commit start >>= answer := by
  rw [← addItems_settle_start hpaths, bind_assoc, ← hwords.addAll_eq hplain]
  exact bind_congr finish_eq

theorem parse_of_sound (hwords : Says items words) (hplain : ∀ x ∈ items, x.IsPlain)
    (h : Sound items) : parse words = (items.foldl record start).answer := by
  rw [parse_eq_commitAll hwords hplain (List.nodup_iff_count_le_one.1 h.once .path),
    commitAll_of_sound h fun x _ => uses_start x.slot, ok_bind]

/-- The first item that is about the same as one before it. -/
theorem parse_again (hwords : Says (front ++ x :: back) words)
    (hplain : ∀ y ∈ front ++ x :: back, y.IsPlain)
    (hpaths : ((front ++ x :: back).map Item.slot).count .path ≤ 1) (h : Sound front)
    (hslot : x.slot ∈ front.map Item.slot) : parse words = .error x.slot.again := by
  have huses : (front.foldl record start).uses x.slot = true := by
    rw [uses_foldl_record h.faultless, decide_eq_true hslot, Bool.or_true]
  rw [parse_eq_commitAll hwords hplain hpaths, commitAll_append h, List.foldlM_cons,
    commit_of_uses huses]
  rfl

/-- The first item with a fault of its own. -/
theorem parse_fault {e : ArgError} (hwords : Says (front ++ x :: back) words)
    (hplain : ∀ y ∈ front ++ x :: back, y.IsPlain)
    (hpaths : ((front ++ x :: back).map Item.slot).count .path ≤ 1) (h : Sound front)
    (hslot : x.slot ∉ front.map Item.slot) (hfault : x.fault? = some e) :
    parse words = .error e := by
  have huses : (front.foldl record start).uses x.slot = false := by
    rw [uses_foldl_record h.faultless, uses_start, decide_eq_false hslot]
    rfl
  rw [parse_eq_commitAll hwords hplain hpaths, commitAll_append h, List.foldlM_cons,
    commit_of_fault huses hfault]
  rfl

theorem parse_eq_addItems (hwords : Says items words) (hplain : ∀ x ∈ items, x.IsPlain) :
    parse words = items.foldlM addItem start >>= finish := by
  rw [parse, hwords.addAll_eq hplain]

/-- A second path is refused whatever comes behind it. -/
theorem parse_secondPath {text : String} (hwords : Says (front ++ .path text :: back) words)
    (hplain : ∀ y ∈ front ++ .path text :: back, y.IsPlain) (h : Sound front)
    (hslot : .path ∈ front.map Item.slot) : parse words = .error .unknownArgument := by
  obtain ⟨p, hp, -, hpath⟩ := addItems_of_sound h
  rw [decide_eq_true hslot] at hpath
  rw [parse_eq_addItems hwords hplain, List.foldlM_append, hp, ok_bind, List.foldlM_cons, addItem,
    if_pos ⟨rfl, hpath⟩]
  rfl

/-- The first path is empty: an item behind it is refused as a second path, or else the path is
refused. -/
theorem parse_emptyPath (hwords : Says (front ++ .path "" :: x :: back) words)
    (hplain : ∀ y ∈ front ++ .path "" :: x :: back, y.IsPlain) (h : Sound front)
    (hslot : .path ∉ front.map Item.slot) :
    parse words = .error (if x.slot = .path then .unknownArgument else .invalidValue) := by
  obtain ⟨p, hp, hsettle, hpath⟩ := addItems_of_sound h
  rw [decide_eq_false hslot] at hpath
  have hfirst : p.addItem (.path "") =
      .ok { front.foldl record start with pending := .path "" } := by
    rw [addItem, if_neg fun hsecond => Bool.eq_false_iff.1 hpath hsecond.2, hsettle]
    rfl
  rw [parse_eq_addItems hwords hplain, List.foldlM_append, hp, ok_bind, List.foldlM_cons, hfirst,
    ok_bind, List.foldlM_cons, addItem]
  by_cases hx : x.slot = .path
  · rw [if_pos ⟨hx, Bool.or_true _⟩, if_pos hx]
    rfl
  · rw [if_neg fun hsecond => hx hsecond.1, if_neg hx]
    rfl

end Arguments

end ShaderIntake.CommandLine
