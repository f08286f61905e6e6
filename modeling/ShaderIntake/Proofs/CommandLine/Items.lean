import ShaderIntake.CommandLine

/-!
# The arguments as items

An item is a path, a flag, or the option with a number together with the number.  `Says` relates
items to the arguments that say them, the last paths perhaps behind the separator.

`Progress.addItem` is what the arguments of one item do (`addAll_words`), so arguments do what
their items do one after the other (`Says.addAll_eq`).  An item judges what is pending first, and
then does something that `put_cases` lists.
-/

namespace ShaderIntake.CommandLine

/-- What follows only counts for the result that is there. -/
theorem bind_congr_of_ok {ε α β : Type} {x : Except ε α} {k k' : α → Except ε β}
    (h : ∀ a, x = .ok a → k a = k' a) : (x >>= k) = (x >>= k') := by
  cases x with
  | error e => rfl
  | ok a => exact h a rfl

/-! ## Items -/

/-- A part of what the arguments say. -/
inductive Item where
  | path (text : String)
  /-- The option with a number.  The number is the next argument, or `attached` behind an equals
  sign. -/
  | limit (attached : Bool) (size : String)
  | structuralMd5
  | json
deriving DecidableEq

/-- What an item is about; only one item can be about it. -/
inductive Slot where
  | path
  | limit
  | structuralMd5
  | json
deriving DecidableEq

/-- The text does not begin with a hyphen. -/
def Unhyphened (text : String) : Prop :=
  text.toList.head? ≠ some '-'

instance (text : String) : Decidable (Unhyphened text) :=
  inferInstanceAs (Decidable (_ ≠ _))

namespace Item

def slot : Item → Slot
  | path _ => .path
  | limit _ _ => .limit
  | structuralMd5 => .structuralMd5
  | json => .json

/-- The arguments that say an item. -/
def words : Item → List String
  | path text => [text]
  | limit false size => ["--max-blob-bytes", size]
  | limit true size => ["--max-blob-bytes=" ++ size]
  | structuralMd5 => ["--structural-md5"]
  | json => ["--json"]

/-- An argument of its own that is no option does not look like one. -/
def IsPlain : Item → Prop
  | path text => Unhyphened text
  | limit false size => Unhyphened size
  | _ => True

end Item

/-- The arguments that say the items in their order.  Paths at the end may stand behind the
separator. -/
inductive Says : List Item → List String → Prop where
  | direct (items : List Item) : Says items (items.flatMap Item.words)
  | separated (items : List Item) (paths : List String) :
    Says (items ++ paths.map .path) (items.flatMap Item.words ++ "--" :: paths)

/-! ## Single arguments -/

theorem ofChars_unhyphened {text : String} (h : Unhyphened text) :
    Token.ofChars text.toList = .plain := by
  unfold Unhyphened at h
  generalize text.toList = chars at h
  unfold Token.ofChars
  split <;> simp at h ⊢

theorem ofChars_attached (size : String) :
    Token.ofChars ("--max-blob-bytes=" ++ size).toList =
      .long "max-blob-bytes".toList (some size.toList) := by
  rw [String.toList_append]
  rfl

/-! ## One item after the other -/

namespace Progress

/-- What an item does where nothing is pending. -/
def put (p : Progress) : Item → Except ArgError Progress
  | .path text => return { p with pending := .path text }
  | .limit false size => return { p with pending := .limit (some size.toList) }
  | .limit true size => p.setLimit size.toList
  | .structuralMd5 =>
    if p.structuralMd5 then .error .argumentConflict else return { p with structuralMd5 := true }
  | .json => if p.json then .error .argumentConflict else return { p with json := true }

/-- What the arguments of an item do: a second path is refused before anything else is judged. -/
def addItem (p : Progress) (x : Item) : Except ArgError Progress :=
  if x.slot = .path ∧ p.hasPath then .error .unknownArgument
  else do
    let p ← p.settle
    p.put x

variable {p q : Progress} {x : Item} {items : List Item}

theorem setLimit_eq_ok {value : List Char} (h : p.setLimit value = .ok q) :
    q = { p with maxBlobBytes := parseSize? value } := by
  unfold setLimit at h
  split at h
  · cases h
  · split at h
    · rename_i n hn
      rw [hn]
      exact (Except.ok.inj h).symm
    · cases h

theorem settle_of_pending (h : p.pending = .nothing) : p.settle = .ok p := by
  rw [settle, h]

/-- Nothing is pending once all is judged. -/
theorem pending_of_settle (h : p.settle = .ok q) : q.pending = .nothing := by
  unfold settle at h
  split at h
  · rename_i hpending
    rw [← Except.ok.inj h, hpending]
  · split at h
    · cases h
    · rw [← Except.ok.inj h]
  · cases h
  · rw [setLimit_eq_ok h]

/-- A path is there before it is judged and after. -/
theorem hasPath_of_settle (h : p.settle = .ok q) : q.hasPath = p.hasPath := by
  unfold settle at h
  split at h
  · rw [Except.ok.inj h]
  · rename_i hpending
    split at h
    · cases h
    · rw [← Except.ok.inj h, hasPath, hasPath, hpending]
      simp
  · cases h
  · rename_i hpending
    rw [setLimit_eq_ok h, hasPath, hasPath, hpending]

/-- An item that is taken changes what it is about, and what is pending unless it is judged. -/
theorem put_cases (h : p.put x = .ok q) :
    (∃ text, x = .path text ∧ q = { p with pending := .path text }) ∨
    (∃ size, x = .limit false size ∧ q = { p with pending := .limit (some size.toList) }) ∨
    (∃ size, x = .limit true size ∧ q = { p with maxBlobBytes := parseSize? size.toList }) ∨
    (x = .structuralMd5 ∧ q = { p with structuralMd5 := true }) ∨
    (x = .json ∧ q = { p with json := true }) := by
  cases x with
  | path text => exact .inl ⟨text, rfl, (Except.ok.inj h).symm⟩
  | limit attached size =>
    cases attached with
    | false => exact .inr (.inl ⟨size, rfl, (Except.ok.inj h).symm⟩)
    | true => exact .inr (.inr (.inl ⟨size, rfl, setLimit_eq_ok h⟩))
  | structuralMd5 =>
    simp only [put] at h
    split at h
    · cases h
    · exact .inr (.inr (.inr (.inl ⟨rfl, (Except.ok.inj h).symm⟩)))
  | json =>
    simp only [put] at h
    split at h
    · cases h
    · exact .inr (.inr (.inr (.inr ⟨rfl, (Except.ok.inj h).symm⟩)))

/-- An item has all of its arguments: its option does not wait for a number. -/
theorem pending_of_addItem (h : p.addItem x = .ok q) : q.pending ≠ .limit none := by
  unfold addItem at h
  split at h
  · cases h
  · obtain ⟨p', hsettle, hput⟩ := bind_eq_ok.1 h
    have hpending := pending_of_settle hsettle
    obtain ⟨_, _, rfl⟩ | ⟨_, _, rfl⟩ | ⟨_, _, rfl⟩ | ⟨_, _, rfl⟩ | ⟨_, _, rfl⟩ := put_cases hput <;>
      simp [hpending]

theorem addPlain_eq (hpending : p.pending ≠ .limit none) (text : String) :
    p.addPlain text = p.addPath text := by
  unfold addPlain
  split
  · contradiction
  · rfl

theorem addPath_eq_addItem (text : String) : p.addPath text = p.addItem (.path text) := by
  simp only [addPath, addItem, Item.slot, true_and]
  rfl

/-- The arguments of an item, read where no option waits for a number. -/
theorem addAll_words (hpending : p.pending ≠ .limit none) (hx : x.IsPlain) (rest : List String) :
    p.addAll (x.words ++ rest) = p.addItem x >>= fun q => q.addAll rest := by
  cases x with
  | path text =>
    change p.addAll (text :: rest) = _
    rw [addAll, ofChars_unhyphened hx]
    dsimp only
    rw [addPlain_eq hpending, addPath_eq_addItem]
  | limit attached size =>
    cases attached with
    | false =>
      change p.addAll ("--max-blob-bytes" :: size :: rest) = _
      rw [addAll, show Token.ofChars "--max-blob-bytes".toList = .long "max-blob-bytes".toList none
        by decide]
      change (p.addOption .maxBlobBytes none >>= fun q => q.addAll (size :: rest)) =
        (p.settle >>= fun q => q.put (.limit false size)) >>= _
      rw [addOption, bind_assoc, bind_assoc]
      refine bind_congr fun q => ?_
      change addAll { q with pending := .limit none } (size :: rest) = _
      rw [addAll, ofChars_unhyphened hx]
      rfl
    | true =>
      change p.addAll (("--max-blob-bytes=" ++ size) :: rest) = _
      rw [addAll, ofChars_attached]
      rfl
  | structuralMd5 => rfl
  | json => rfl

theorem addAll_flatMap_words (hpending : p.pending ≠ .limit none)
    (hplain : ∀ x ∈ items, x.IsPlain) (rest : List String) :
    p.addAll (items.flatMap Item.words ++ rest) =
      items.foldlM addItem p >>= fun q => q.addAll rest := by
  induction items generalizing p with
  | nil => rfl
  | cons x items ih =>
    rw [List.forall_mem_cons] at hplain
    rw [List.flatMap_cons, List.append_assoc, addAll_words hpending hplain.1, List.foldlM_cons,
      bind_assoc]
    exact bind_congr_of_ok fun q hq => ih (pending_of_addItem hq) hplain.2

/-- Behind the separator every argument is a path. -/
theorem addPaths_eq (paths : List String) :
    p.addPaths paths = (paths.map Item.path).foldlM addItem p := by
  induction paths generalizing p with
  | nil => rfl
  | cons text paths ih =>
    rw [addPaths, List.map_cons, List.foldlM_cons, addPath_eq_addItem]
    exact bind_congr fun q => ih

end Progress

/-- Arguments do what their items do, one after the other. -/
theorem Says.addAll_eq {items : List Item} {words : List String} (h : Says items words)
    (hplain : ∀ x ∈ items, x.IsPlain) :
    Progress.start.addAll words = items.foldlM Progress.addItem Progress.start := by
  cases h with
  | direct =>
    have hwords := Progress.addAll_flatMap_words (p := .start) (by decide) hplain []
    rw [List.append_nil] at hwords
    rw [hwords]
    exact bind_pure _
  | separated items paths =>
    rw [Progress.addAll_flatMap_words (by decide)
      (fun x hx => hplain x (List.mem_append_left _ hx)), List.foldlM_append]
    exact bind_congr fun q => Progress.addPaths_eq paths

end ShaderIntake.CommandLine
